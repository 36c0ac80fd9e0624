import Mathlib.Tactic
import Vodka.Foundation.Chain

/-!
# The intrusive singly linked list of Zephyr

The operations follow `sys/list_gen.h`: every node carries its own link, the
list carries head and tail, and no operation checks whether a node is already
linked. A loop over the list is given fuel, since a damaged list can be cyclic.
`Represents` relates the links to the list of nodes they hold.
-/

namespace Vodka.Zephyr.Slist

open Foundation.Chain

variable {Node : Type*} [DecidableEq Node]

/-- A list object together with the link word of every node. -/
structure SysSlist (Node : Type*) where
  head : Option Node
  tail : Option Node
  next : Node → Option Node

variable {list : SysSlist Node} {node : Node} {nodes : List Node}

def sysSlistInit (list : SysSlist Node) : SysSlist Node :=
  { list with head := none, tail := none }

def nextSet (list : SysSlist Node) (parent : Node) (child : Option Node) : SysSlist Node :=
  { list with next := Function.update list.next parent child }

/-- `Z_GENLIST_APPEND`. -/
def sysSlistAppend (list : SysSlist Node) (node : Node) : SysSlist Node :=
  let list := nextSet list node none
  match list.tail with
  | none => { list with tail := some node, head := some node }
  | some tail => { nextSet list tail (some node) with tail := some node }

/-- `Z_GENLIST_REMOVE`. -/
def sysSlistRemove (list : SysSlist Node) (prevNode : Option Node) (node : Node) : SysSlist Node :=
  let list :=
    match prevNode with
    | none =>
      let list := { list with head := list.next node }
      if list.tail = some node then { list with tail := list.head } else list
    | some prev =>
      let list := nextSet list prev (list.next node)
      if list.tail = some node then { list with tail := some prev } else list
  nextSet list node none

/-- The loop of `Z_GENLIST_FIND_AND_REMOVE` from the node `test`. -/
def findAndRemoveFrom (list : SysSlist Node) (node : Node) :
    ℕ → Option Node → Option Node → Option (SysSlist Node × Bool)
  | _, _, none => some (list, false)
  | 0, _, some _ => none
  | fuel + 1, prev, some test =>
    if test = node then some (sysSlistRemove list prev node, true)
    else findAndRemoveFrom list node fuel (some test) (list.next test)

def sysSlistFindAndRemove (fuel : ℕ) (list : SysSlist Node) (node : Node) :
    Option (SysSlist Node × Bool) :=
  findAndRemoveFrom list node fuel none list.head

/-- `SYS_SLIST_FOR_EACH_CONTAINER` from the node `cursor`: the link is read after the body. -/
def forEachFrom {σ : Type*} (links : σ → SysSlist Node) (body : Node → σ → σ) :
    ℕ → Option Node → σ → Option σ
  | _, none, state => some state
  | 0, some _, _ => none
  | fuel + 1, some node, state =>
    let state := body node state
    forEachFrom links body fuel ((links state).next node) state

def forEach {σ : Type*} (fuel : ℕ) (links : σ → SysSlist Node) (body : Node → σ → σ) (state : σ) :
    Option σ :=
  forEachFrom links body fuel (links state).head state

/-- The nodes a loop over the list visits, when it ends within the fuel. -/
def visited (fuel : ℕ) (list : SysSlist Node) : Option (List Node) :=
  (forEach fuel Prod.fst (fun node state ↦ (state.1, state.2 ++ [node])) (list, [])).map Prod.snd

/-- The links form a finite chain of distinct nodes whose last one is the tail. -/
structure Represents (list : SysSlist Node) (nodes : List Node) : Prop where
  chain : Segment list.next list.head nodes none
  nodup : nodes.Nodup
  tail_eq : list.tail = nodes.getLast?

omit [DecidableEq Node] in
theorem represents_init (list : SysSlist Node) : Represents (sysSlistInit list) [] :=
  ⟨rfl, List.nodup_nil, rfl⟩

omit [DecidableEq Node] in
theorem Represents.unique {other : List Node} (h : Represents list nodes)
    (hother : Represents list other) : nodes = other :=
  h.chain.chain_unique hother.chain

/-- Appending a node that is not linked puts it at the end. -/
theorem Represents.append (h : Represents list nodes) (hnode : node ∉ nodes) :
    Represents (sysSlistAppend list node) (nodes ++ [node]) := by
  have hnodup : (nodes ++ [node]).Nodup := by
    rw [List.nodup_middle, List.append_nil, List.nodup_cons]
    exact ⟨hnode, h.nodup⟩
  rcases List.eq_nil_or_concat' nodes with rfl | ⟨before, last, rfl⟩
  · have htail : list.tail = none := h.tail_eq
    refine ⟨?_, hnodup, ?_⟩ <;> simp [sysSlistAppend, nextSet, htail]
  · have htail : list.tail = some last := by simpa using h.tail_eq
    have hlast : last ≠ node := fun heq ↦ hnode (by simp [heq])
    have hbefore : node ∉ before := fun hmem ↦ hnode (by simp [hmem])
    have hfresh : last ∉ before := by
      simpa using (List.nodup_cons.mp (List.nodup_middle.mp h.nodup)).1
    obtain ⟨middle, hstart, hend⟩ := segment_append.mp h.chain
    refine ⟨?_, hnodup, ?_⟩
    · simp only [sysSlistAppend, nextSet, htail, List.append_assoc]
      refine segment_append.mpr ⟨middle, (hstart.update hbefore none).update hfresh _, ?_⟩
      simp [hend.1, Function.update_of_ne hlast.symm]
    · simp [sysSlistAppend, nextSet, htail]

/-- Appending the last node again makes it its own successor: the chain does not end. -/
theorem Represents.append_last {before : List Node} (h : Represents list (before ++ [node])) :
    ∀ after,
      ¬ Segment (sysSlistAppend list node).next (sysSlistAppend list node).head after none := by
  intro after hchain
  have htail : list.tail = some node := by simpa using h.tail_eq
  have hbefore : node ∉ before := by
    simpa using (List.nodup_cons.mp (List.nodup_middle.mp h.nodup)).1
  obtain ⟨middle, hstart, hend⟩ := segment_append.mp h.chain
  simp only [sysSlistAppend, nextSet, htail] at hchain
  obtain ⟨rest, -, hloop⟩ := ((hstart.update hbefore none).update hbefore _).prefix_of_chain hchain
  rw [hend.1] at hloop
  exact not_chain_of_self_link (by simp) hloop

/-- Appending an inner node again cuts off everything behind it. -/
theorem Represents.append_inner {before after : List Node}
    (h : Represents list (before ++ node :: after)) (hafter : after ≠ []) :
    Represents (sysSlistAppend list node) (before ++ [node]) := by
  obtain ⟨inner, last, rfl⟩ := (List.eq_nil_or_concat' after).resolve_left hafter
  have htail : list.tail = some last := by simpa [List.getLast?_cons] using h.tail_eq
  have hnodup := List.nodup_cons.mp (List.nodup_middle.mp h.nodup)
  have hbefore : node ∉ before := fun hmem ↦ hnodup.1 (by simp [hmem])
  have hne : last ≠ node := fun heq ↦ hnodup.1 (by simp [heq])
  have hlastBefore : last ∉ before := by
    rw [← List.append_assoc, List.nodup_middle, List.append_nil, List.nodup_cons] at hnodup
    exact fun hmem ↦ hnodup.2.1 (by simp [hmem])
  obtain ⟨middle, hstart, hend⟩ := segment_append.mp h.chain
  refine ⟨?_, ?_, ?_⟩
  · simp only [sysSlistAppend, nextSet, htail]
    refine segment_append.mpr ⟨middle, (hstart.update hbefore none).update hlastBefore _, ?_⟩
    simp [hend.1, Function.update_of_ne hne.symm]
  · rw [List.nodup_middle, List.append_nil, List.nodup_cons]
    exact ⟨hbefore, h.nodup.of_append_left⟩
  · simp [sysSlistAppend, nextSet, htail]

omit [DecidableEq Node] in
/-- The list ends in a node exactly when nothing follows that node. -/
theorem Represents.tail_iff {before after : List Node}
    (h : Represents list (before ++ node :: after)) :
    list.tail = some node ↔ after = [] := by
  have hnodup := List.nodup_cons.mp (List.nodup_middle.mp h.nodup)
  rw [h.tail_eq]
  rcases List.eq_nil_or_concat' after with rfl | ⟨inner, last, rfl⟩
  · simp
  · have hne : last ≠ node := fun heq ↦ hnodup.1 (by simp [heq])
    simp [List.getLast?_cons, hne]

theorem Represents.remove_head (h : Represents list (node :: nodes)) :
    Represents (sysSlistRemove list none node) nodes := by
  have hnodup := List.nodup_cons.mp h.nodup
  have htail :=
    (List.nil_append (node :: nodes) ▸ h : Represents list ([] ++ node :: nodes)).tail_iff
  obtain ⟨-, hchain⟩ := h.chain
  by_cases hend : nodes = []
  · subst hend
    simp only [segment_nil] at hchain
    refine ⟨?_, hnodup.2, ?_⟩ <;> simp [sysSlistRemove, nextSet, htail, hchain]
  · have hkept : list.tail = nodes.getLast? := by
      obtain ⟨inner, last, rfl⟩ := (List.eq_nil_or_concat' nodes).resolve_left hend
      simpa [List.getLast?_cons] using h.tail_eq
    refine ⟨?_, hnodup.2, ?_⟩ <;> simp only [sysSlistRemove, nextSet, htail, hend, if_false]
    · exact hchain.update hnodup.1 none
    · exact hkept

theorem Represents.remove_behind {front after : List Node} {prev : Node}
    (h : Represents list (front ++ prev :: node :: after)) :
    Represents (sysSlistRemove list (some prev) node) (front ++ prev :: after) := by
  have hnode : Represents list ((front ++ [prev]) ++ node :: after) := by simpa using h
  have htail := hnode.tail_iff
  have hnodup := List.nodup_cons.mp (List.nodup_middle.mp hnode.nodup)
  have hprev := List.nodup_cons.mp (List.nodup_middle.mp h.nodup)
  have hfront : prev ∉ front := fun hmem ↦ hprev.1 (by simp [hmem])
  have hafter : prev ∉ after := fun hmem ↦ hprev.1 (by simp [hmem])
  have hne : prev ≠ node := fun heq ↦ hprev.1 (by simp [heq])
  have hnodeFront : node ∉ front := fun hmem ↦ hnodup.1 (by simp [hmem])
  have hnodeAfter : node ∉ after := fun hmem ↦ hnodup.1 (by simp [hmem])
  obtain ⟨middle, hstart, rfl, -, hend⟩ := segment_append.mp h.chain
  refine ⟨?_, by simpa using hnodup.2, ?_⟩
  · have hlinks : Segment
        (Function.update (Function.update list.next prev (list.next node)) node none)
        list.head (front ++ prev :: after) none := by
      refine segment_append.mpr ⟨_, (hstart.update hfront _).update hnodeFront none, rfl, ?_⟩
      rw [Function.update_of_ne hne, Function.update_self]
      exact (hend.update hafter _).update hnodeAfter none
    by_cases hlast : list.tail = some node <;>
      simpa only [sysSlistRemove, nextSet, hlast, if_true, if_false] using hlinks
  · by_cases hlast : after = []
    · simp [sysSlistRemove, nextSet, htail, hlast]
    · obtain ⟨inner, last, rfl⟩ := (List.eq_nil_or_concat' after).resolve_left hlast
      simpa [sysSlistRemove, nextSet, htail, List.getLast?_cons] using h.tail_eq

/-- Removing a linked node closes the gap behind its predecessor. -/
theorem Represents.remove {before after : List Node}
    (h : Represents list (before ++ node :: after)) :
    Represents (sysSlistRemove list before.getLast? node) (before ++ after) := by
  rcases List.eq_nil_or_concat' before with rfl | ⟨front, prev, rfl⟩
  · exact h.remove_head
  · rw [List.append_assoc, List.singleton_append] at h
    simpa using h.remove_behind

/-- The search removes the node behind the last one it has passed. -/
theorem findAndRemoveFrom_of_passed (prev : Option Node) {passed : List Node}
    {cursor : Option Node} {fuel : ℕ}
    (hcursor : Segment list.next cursor passed (some node)) (hpassed : node ∉ passed)
    (hfuel : passed.length < fuel) :
    findAndRemoveFrom list node fuel prev cursor =
      some (sysSlistRemove list (passed.getLast?.or prev) node, true) := by
  induction passed generalizing cursor prev fuel with
  | nil =>
    obtain ⟨fuel, rfl⟩ := Nat.exists_eq_succ_of_ne_zero hfuel.ne'
    obtain rfl := hcursor
    simp [findAndRemoveFrom]
  | cons first passed ih =>
    obtain ⟨fuel, rfl⟩ := Nat.exists_eq_succ_of_ne_zero (Nat.ne_zero_of_lt hfuel)
    obtain ⟨rfl, hrest⟩ := hcursor
    rw [List.mem_cons, not_or] at hpassed
    have hlast : passed.getLast?.or (some first) = ((first :: passed).getLast?).or prev := by
      cases hget : passed.getLast? <;> simp [List.getLast?_cons, hget]
    simp only [findAndRemoveFrom, Ne.symm hpassed.1, if_false]
    rw [ih (some first) hrest hpassed.2 (by simpa using hfuel), hlast]

theorem findAndRemoveFrom_of_not_mem {cursor prev : Option Node} {fuel : ℕ}
    (hcursor : Segment list.next cursor nodes none) (hnode : node ∉ nodes)
    (hfuel : nodes.length ≤ fuel) :
    findAndRemoveFrom list node fuel prev cursor = some (list, false) := by
  induction nodes generalizing cursor prev fuel with
  | nil =>
    obtain rfl := hcursor
    simp [findAndRemoveFrom]
  | cons first nodes ih =>
    obtain ⟨fuel, rfl⟩ := Nat.exists_eq_succ_of_ne_zero (Nat.ne_zero_of_lt hfuel)
    obtain ⟨rfl, hrest⟩ := hcursor
    rw [List.mem_cons, not_or] at hnode
    simp only [findAndRemoveFrom, Ne.symm hnode.1, if_false]
    exact ih hrest hnode.2 (by simpa using hfuel)

/-- `sys_slist_find_and_remove` on a well-formed list erases the node and tells whether
it was there. -/
theorem Represents.findAndRemove {fuel : ℕ} (h : Represents list nodes)
    (hfuel : nodes.length ≤ fuel) (node : Node) :
    ∃ list', sysSlistFindAndRemove fuel list node = some (list', decide (node ∈ nodes)) ∧
      Represents list' (nodes.erase node) := by
  by_cases hmem : node ∈ nodes
  · obtain ⟨before, after, rfl, hbefore⟩ := List.eq_append_cons_of_mem hmem
    obtain ⟨middle, hstart, rfl, -⟩ := segment_append.mp h.chain
    have hfound := findAndRemoveFrom_of_passed none hstart hbefore
      (lt_of_lt_of_le (by simp) hfuel)
    rw [Option.or_none] at hfound
    refine ⟨_, by simpa [sysSlistFindAndRemove] using hfound, ?_⟩
    rw [List.erase_append_right _ hbefore, List.erase_cons_head]
    exact h.remove
  · refine ⟨list, ?_, by rwa [List.erase_of_not_mem hmem]⟩
    simpa [sysSlistFindAndRemove, hmem] using findAndRemoveFrom_of_not_mem h.chain hmem hfuel

omit [DecidableEq Node] in
/-- A loop whose body leaves the list alone runs its body once on every node, in order. -/
theorem forEachFrom_eq_foldl {σ : Type*} {links : σ → SysSlist Node} {body : Node → σ → σ}
    (hlinks : ∀ node state, links (body node state) = links state) {cursor : Option Node}
    {fuel : ℕ} {state : σ} (hcursor : Segment (links state).next cursor nodes none)
    (hfuel : nodes.length ≤ fuel) :
    forEachFrom links body fuel cursor state =
      some (nodes.foldl (fun state node ↦ body node state) state) := by
  induction nodes generalizing cursor fuel state with
  | nil =>
    obtain rfl := hcursor
    simp [forEachFrom]
  | cons first nodes ih =>
    obtain ⟨fuel, rfl⟩ := Nat.exists_eq_succ_of_ne_zero (Nat.ne_zero_of_lt hfuel)
    obtain ⟨rfl, hrest⟩ := hcursor
    simp only [forEachFrom, List.foldl_cons, hlinks]
    exact ih (by rwa [hlinks]) (by simpa using hfuel)

omit [DecidableEq Node] in
theorem Represents.forEach_eq_foldl {σ : Type*} {links : σ → SysSlist Node}
    {body : Node → σ → σ} (hlinks : ∀ node state, links (body node state) = links state)
    {fuel : ℕ} {state : σ} (h : Represents (links state) nodes) (hfuel : nodes.length ≤ fuel) :
    forEach fuel links body state = some (nodes.foldl (fun state node ↦ body node state) state) :=
  forEachFrom_eq_foldl hlinks h.chain hfuel

omit [DecidableEq Node] in
/-- The loop rule: what holds at the start and is carried over each node, given the nodes
passed so far, holds of all nodes at the end. -/
theorem Represents.forEach_rule {σ : Type*} {links : σ → SysSlist Node} {body : Node → σ → σ}
    (Inv : List Node → σ → Prop) (hlinks : ∀ node state, links (body node state) = links state)
    {fuel : ℕ} {state : σ} (h : Represents (links state) nodes)
    (hfuel : nodes.length ≤ fuel) (start : Inv [] state)
    (step : ∀ passed node state, passed ++ [node] <+: nodes → Inv passed state →
      Inv (passed ++ [node]) (body node state)) :
    ∃ final, forEach fuel links body state = some final ∧ Inv nodes final := by
  refine ⟨_, h.forEach_eq_foldl hlinks hfuel, ?_⟩
  have hrun : ∀ (passed rest : List Node) (state : σ), passed ++ rest = nodes → Inv passed state →
      Inv nodes (rest.foldl (fun state node ↦ body node state) state) := by
    intro passed rest
    induction rest generalizing passed with
    | nil => simp +contextual
    | cons node rest ih =>
      intro state heq hinv
      rw [← List.singleton_append, ← List.append_assoc] at heq
      exact ih _ _ heq (step passed node state ⟨rest, heq⟩ hinv)
  exact hrun [] nodes state rfl start

omit [DecidableEq Node] in
/-- A loop over a well-formed list ends and visits each node once, in order. -/
theorem Represents.visited_eq {fuel : ℕ} (h : Represents list nodes)
    (hfuel : nodes.length ≤ fuel) : visited fuel list = some nodes := by
  have hfold : ∀ (passed rest : List Node),
      rest.foldl (fun state node ↦ (state.1, state.2 ++ [node])) (list, passed) =
        (list, passed ++ rest) := by
    intro passed rest
    induction rest generalizing passed with
    | nil => simp
    | cons node rest ih => simp [ih]
  have hloop : forEach fuel Prod.fst (fun node state ↦ (state.1, state.2 ++ [node])) (list, []) =
      some (nodes.foldl (fun state node ↦ (state.1, state.2 ++ [node])) (list, [])) := by
    apply Represents.forEach_eq_foldl _ _ hfuel
    · exact fun _ _ ↦ rfl
    · exact h
  simp [visited, hloop, hfold]

end Vodka.Zephyr.Slist
