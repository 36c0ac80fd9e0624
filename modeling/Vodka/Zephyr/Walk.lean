import Mathlib.Tactic
import Vodka.Zephyr.Slist

/-!
# Lists with a self-linked end

Appending the last node once more links it to itself, and no later operation
repairs that on purpose. Such a list still has an order: a walk meets distinct
nodes and stays at the last one. `Linked` holds of every list the operations
can build from the empty one, whatever they are applied to.
-/

namespace Vodka.Zephyr.Walk

open Foundation.Chain Slist

variable {Node : Type*} [DecidableEq Node]

/-- The link of a node, where a node linked to itself is taken for the end. -/
def linkOn (next : Node → Option Node) (node : Node) : Option Node :=
  if next node = some node then none else next node

/-- The distinct nodes a walk over the list meets, in order. -/
def Order (list : SysSlist Node) (nodes : List Node) : Prop :=
  Segment (linkOn list.next) list.head nodes none

/-- The list has an order and its tail is one of its nodes, the last or not. -/
structure Linked (list : SysSlist Node) (nodes : List Node) : Prop where
  order : Order list nodes
  tail_none : list.tail = none → nodes = []
  tail_mem : ∀ tail, list.tail = some tail → tail ∈ nodes

variable {list : SysSlist Node} {node : Node} {nodes : List Node} {next : Node → Option Node}

theorem linkOn_update (next : Node → Option Node) (node : Node) (link : Option Node) :
    linkOn (Function.update next node link) =
      Function.update (linkOn next) node (if link = some node then none else link) := by
  funext other
  rcases eq_or_ne other node with rfl | hne
  · simp [linkOn]
  · simp [linkOn, hne]

theorem linkOn_of_ne (h : next node ≠ some node) : linkOn next node = next node :=
  if_neg h

theorem linkOn_eq_some {other : Node} (h : linkOn next node = some other) :
    next node = some other := by
  unfold linkOn at h
  split_ifs at h
  exact h

theorem Order.unique {other : List Node} (h : Order list nodes) (hother : Order list other) :
    nodes = other :=
  h.chain_unique hother

theorem Order.nodup (h : Order list nodes) : nodes.Nodup :=
  Segment.nodup_of_chain h

/-- A walk that goes on to another node follows the links as they are. -/
theorem segment_of_linkOn {start : Option Node}
    (h : Segment (linkOn next) start nodes (some node)) : Segment next start nodes (some node) := by
  induction nodes generalizing start with
  | nil => exact h
  | cons first nodes ih =>
    obtain ⟨rfl, hrest⟩ := h
    obtain ⟨other, hother⟩ := hrest.start_of_some
    refine ⟨rfl, ?_⟩
    rw [linkOn_eq_some hother, ← hother]
    exact ih hrest

/-- The links lead out of no order. -/
theorem Order.next_mem (h : Order list nodes) (hnode : node ∈ nodes) {other : Node}
    (hnext : list.next node = some other) : other ∈ nodes := by
  by_cases hself : list.next node = some node
  · obtain rfl := Option.some.inj (hself.symm.trans hnext)
    exact hnode
  · obtain ⟨before, after, rfl⟩ := List.append_of_mem hnode
    obtain ⟨middle, -, rfl, hrest⟩ := segment_append.mp h
    rw [linkOn_of_ne hself, hnext] at hrest
    cases after with
    | nil => simp at hrest
    | cons first after =>
      obtain rfl := Option.some.inj hrest.1
      simp

theorem Order.head_mem (h : Order list nodes) {first : Node} (hfirst : list.head = some first) :
    first ∈ nodes := by
  cases nodes with
  | nil => simp [Order, hfirst] at h
  | cons other nodes =>
    obtain rfl := Option.some.inj (hfirst.symm.trans h.1)
    exact List.mem_cons_self

theorem linked_init (list : SysSlist Node) : Linked (sysSlistInit list) [] :=
  ⟨rfl, fun _ ↦ rfl, fun _ h ↦ by simp [sysSlistInit] at h⟩

/-- Appending any node, linked or not, leaves an order that ends in the node. -/
theorem Linked.append (h : Linked list nodes) (node : Node) :
    ∃ after, Linked (sysSlistAppend list node) after := by
  cases htail : list.tail with
  | none =>
    refine ⟨[node], ?_, ?_, ?_⟩ <;> simp [Order, sysSlistAppend, nextSet, htail, linkOn]
  | some tail =>
    have hnodup := h.order.nodup
    obtain ⟨before, after, rfl⟩ := List.append_of_mem (h.tail_mem tail htail)
    obtain ⟨middle, hstart, rfl, -⟩ := segment_append.mp h.order
    have hfresh : tail ∉ before := fun hmem ↦
      (List.nodup_cons.mp (List.nodup_middle.mp hnodup)).1 (by simp [hmem])
    have hlinked (order : List Node) (hmem : node ∈ order)
        (hsegment : Segment (Function.update (Function.update (linkOn list.next) node none) tail
          (if some node = some tail then none else some node)) list.head order none) :
        Linked (sysSlistAppend list node) order := by
      refine ⟨?_, ?_, ?_⟩
      · simpa [Order, sysSlistAppend, nextSet, htail, linkOn_update] using hsegment
      · simp [sysSlistAppend, nextSet, htail]
      · simpa [sysSlistAppend, nextSet, htail] using hmem
    by_cases hbefore : node ∈ before
    · -- Everything behind the node is cut off.
      obtain ⟨front, rest, rfl⟩ := List.append_of_mem hbefore
      have hne : node ≠ tail := fun heq ↦ hfresh (heq ▸ hbefore)
      have hfront : node ∉ front := fun hmem ↦ by
        have hbeforeNodup := hnodup.of_append_left
        exact (List.nodup_cons.mp (List.nodup_middle.mp hbeforeNodup)).1 (by simp [hmem])
      obtain ⟨start, hfrontStart, rfl, -⟩ := segment_append.mp hstart
      refine ⟨front ++ [node], hlinked _ (by simp) (segment_append.mpr ⟨some node, ?_, ?_⟩)⟩
      · exact (hfrontStart.update hfront none).update (fun hmem ↦ hfresh (by simp [hmem])) _
      · simp [Function.update_of_ne hne]
    · have hkept := (hstart.update hbefore none).update hfresh
        (if some node = some tail then none else some node)
      rcases eq_or_ne node tail with rfl | hne
      · refine ⟨before ++ [node], hlinked _ (by simp) (segment_append.mpr ⟨some node, hkept, ?_⟩)⟩
        simp
      · refine ⟨before ++ [tail, node], hlinked _ (by simp)
          (segment_append.mpr ⟨some tail, hkept, ?_⟩)⟩
        simp [hne]

/-- An append changes nothing exactly when the node is the tail and already linked to itself. -/
theorem sysSlistAppend_eq_self_iff (list : SysSlist Node) (node : Node) :
    sysSlistAppend list node = list ↔ list.tail = some node ∧ list.next node = some node := by
  constructor
  · intro h
    have htail : (sysSlistAppend list node).tail = some node := by
      cases hold : list.tail <;> simp [sysSlistAppend, nextSet, hold]
    rw [h] at htail
    have hnext : (sysSlistAppend list node).next node = some node := by
      simp [sysSlistAppend, nextSet, htail]
    exact ⟨htail, h ▸ hnext⟩
  · rintro ⟨htail, hnext⟩
    obtain ⟨head, tail, next⟩ := list
    subst htail
    simp only [sysSlistAppend, nextSet, Function.update_idem, SysSlist.mk.injEq, true_and]
    exact Function.update_eq_self_iff.mpr hnext.symm

theorem Linked.remove_head {after : List Node} (h : Linked list (node :: after)) :
    Linked (sysSlistRemove list none node)
      (if list.next node = some node then node :: after else after) := by
  obtain ⟨hhead, hchain⟩ := h.order
  have hfresh : node ∉ after := (List.nodup_cons.mp h.order.nodup).1
  have hnonempty : list.tail ≠ none := fun hnone ↦ by simpa using h.tail_none hnone
  by_cases hself : list.next node = some node
  · have hafter : after = [] := by
      have hend : linkOn list.next node = none := if_pos hself
      rw [hend] at hchain
      exact hchain.eq_nil_of_none
    subst hafter
    have htail : list.tail = some node := by
      obtain ⟨tail, htail⟩ := Option.ne_none_iff_exists'.mp hnonempty
      simpa [htail] using h.tail_mem tail htail
    rw [if_pos hself]
    refine ⟨?_, ?_, ?_⟩ <;> simp [Order, sysSlistRemove, nextSet, htail, hself, linkOn_update]
  · rw [linkOn_of_ne hself] at hchain
    rw [if_neg hself]
    have horder : Segment (linkOn (Function.update list.next node none)) (list.next node) after
        none := by
      rw [linkOn_update]
      exact hchain.update hfresh _
    by_cases htail : list.tail = some node
    · refine ⟨by simpa [Order, sysSlistRemove, nextSet, htail] using horder, ?_, ?_⟩
      · simp only [sysSlistRemove, nextSet, htail, if_true]
        intro hnone
        rw [hnone] at hchain
        exact hchain.eq_nil_of_none
      · simp only [sysSlistRemove, nextSet, htail, if_true]
        intro tail hnext
        rw [hnext] at hchain
        exact hchain.start_mem
    · refine ⟨by simpa [Order, sysSlistRemove, nextSet, htail] using horder, ?_, ?_⟩
      · simp only [sysSlistRemove, nextSet, htail, if_false]
        exact fun hnone ↦ absurd hnone hnonempty
      · simp only [sysSlistRemove, nextSet, htail, if_false]
        intro tail hold
        have hne : tail ≠ node := fun heq ↦ htail (heq ▸ hold)
        exact (List.mem_cons.mp (h.tail_mem tail hold)).resolve_left hne

theorem Linked.remove_behind {front after : List Node} {prev : Node}
    (h : Linked list (front ++ prev :: node :: after)) :
    Linked (sysSlistRemove list (some prev) node)
      (if list.next node = some node then front ++ prev :: node :: after
        else front ++ prev :: after) := by
  have hnodup := h.order.nodup
  rw [List.nodup_middle, List.nodup_cons, List.mem_append, List.mem_cons] at hnodup
  have hfront : prev ∉ front := fun hmem ↦ hnodup.1 (.inl hmem)
  have hne : node ≠ prev := fun heq ↦ hnodup.1 (.inr (.inl heq.symm))
  have hafter : prev ∉ after := fun hmem ↦ hnodup.1 (.inr (.inr hmem))
  have hnode := (List.nodup_cons.mp (List.nodup_middle.mp hnodup.2)).1
  rw [List.mem_append, not_or] at hnode
  obtain ⟨middle, hstart, rfl, -, hchain⟩ := segment_append.mp h.order
  have hnonempty : list.tail ≠ none := fun hnone ↦ by simpa using h.tail_none hnone
  -- Whichever node ends up as the tail, the links are the same.
  have hlinked (order : List Node) (hprev : prev ∈ order)
      (hmem : ∀ tail ≠ node, tail ∈ front ++ prev :: node :: after → tail ∈ order)
      (hsegment : Segment (linkOn (Function.update (Function.update list.next prev
        (list.next node)) node none)) list.head order none) :
      Linked (sysSlistRemove list (some prev) node) order := by
    by_cases htail : list.tail = some node
    · refine ⟨by simpa [Order, sysSlistRemove, nextSet, htail] using hsegment, ?_, ?_⟩
      · simp [sysSlistRemove, nextSet, htail]
      · simpa [sysSlistRemove, nextSet, htail] using hprev
    · refine ⟨by simpa [Order, sysSlistRemove, nextSet, htail] using hsegment, ?_, ?_⟩
      · simp only [sysSlistRemove, nextSet, htail, if_false]
        exact fun hnone ↦ absurd hnone hnonempty
      · simp only [sysSlistRemove, nextSet, htail, if_false]
        intro tail hold
        exact hmem tail (fun heq ↦ htail (heq ▸ hold)) (h.tail_mem tail hold)
  rw [linkOn_update, linkOn_update] at hlinked
  have hkept := (hstart.update hfront
    (if list.next node = some prev then none else list.next node)).update hnode.1 none
  by_cases hself : list.next node = some node
  · have hnil : after = [] := by
      have hend : linkOn list.next node = none := if_pos hself
      rw [hend] at hchain
      exact hchain.eq_nil_of_none
    subst hnil
    rw [if_pos hself]
    refine hlinked _ (by simp) (fun _ _ hmem ↦ hmem)
      (segment_append.mpr ⟨some prev, hkept, rfl, ?_⟩)
    simp [hself, hne, hne.symm]
  · rw [linkOn_of_ne hself] at hchain
    rw [if_neg hself]
    have hback : list.next node ≠ some prev := fun hlink ↦ by
      rw [hlink] at hchain
      exact hafter hchain.start_mem
    refine hlinked _ (by simp) (fun tail hother hmem ↦ ?_)
      (segment_append.mpr ⟨some prev, hkept, rfl, ?_⟩)
    · simpa [hother] using hmem
    · rw [Function.update_of_ne hne.symm, Function.update_self, if_neg hback]
      exact (hchain.update hafter _).update hnode.2 none

/-- What the removal of a node that is met leaves: all nodes when it was linked to itself. -/
theorem Linked.remove {before after : List Node} (h : Linked list (before ++ node :: after)) :
    Linked (sysSlistRemove list before.getLast? node)
      (if list.next node = some node then before ++ node :: after else before ++ after) := by
  rcases List.eq_nil_or_concat' before with rfl | ⟨front, prev, rfl⟩
  · exact h.remove_head
  · rw [List.append_assoc, List.singleton_append] at h
    simpa using h.remove_behind

/-- The search finds a node of the order, and nothing else. -/
theorem Linked.findAndRemove {before after : List Node}
    (h : Linked list (before ++ node :: after)) {fuel : ℕ} (hfuel : before.length < fuel) :
    sysSlistFindAndRemove fuel list node =
      some (sysSlistRemove list before.getLast? node, true) := by
  obtain ⟨middle, hstart, rfl, -⟩ := segment_append.mp h.order
  have hbefore : node ∉ before := fun hmem ↦
    (List.nodup_cons.mp (List.nodup_middle.mp h.order.nodup)).1 (by simp [hmem])
  simpa [sysSlistFindAndRemove] using
    findAndRemoveFrom_of_passed none (segment_of_linkOn hstart) hbefore hfuel

theorem findAndRemoveFrom_of_not_mem (h : Order list nodes) (hnode : node ∉ nodes) {fuel : ℕ}
    {prev cursor : Option Node} {found : SysSlist Node × Bool}
    (hcursor : ∀ other, cursor = some other → other ∈ nodes)
    (hfound : findAndRemoveFrom list node fuel prev cursor = some found) :
    found = (list, false) := by
  induction fuel generalizing prev cursor with
  | zero =>
    cases cursor with
    | none => exact (Option.some.inj hfound).symm
    | some other => simp [findAndRemoveFrom] at hfound
  | succ fuel ih =>
    cases cursor with
    | none => exact (Option.some.inj hfound).symm
    | some other =>
      have hother := hcursor other rfl
      simp only [findAndRemoveFrom, ne_of_mem_of_not_mem hother hnode, if_false] at hfound
      exact ih (fun _ hnext ↦ h.next_mem hother hnext) hfound

/-- A search for another node changes nothing if it ends; on a self-linked end it does not. -/
theorem Order.findAndRemove_of_not_mem (h : Order list nodes) (hnode : node ∉ nodes) {fuel : ℕ}
    {found : SysSlist Node × Bool} (hfound : sysSlistFindAndRemove fuel list node = some found) :
    found = (list, false) :=
  findAndRemoveFrom_of_not_mem h hnode (fun _ hfirst ↦ h.head_mem hfirst) hfound

theorem findAndRemoveFrom_of_le {fuel more : ℕ} {prev cursor : Option Node}
    {found : SysSlist Node × Bool} (hfuel : fuel ≤ more)
    (hfound : findAndRemoveFrom list node fuel prev cursor = some found) :
    findAndRemoveFrom list node more prev cursor = some found := by
  induction fuel generalizing more prev cursor with
  | zero =>
    cases cursor with
    | none => simpa [findAndRemoveFrom] using hfound
    | some other => simp [findAndRemoveFrom] at hfound
  | succ fuel ih =>
    obtain ⟨more, rfl⟩ := Nat.exists_eq_succ_of_ne_zero (Nat.ne_zero_of_lt hfuel)
    cases cursor with
    | none => simpa [findAndRemoveFrom] using hfound
    | some other =>
      rcases eq_or_ne other node with rfl | hne
      · simpa [findAndRemoveFrom] using hfound
      · simp only [findAndRemoveFrom, hne, if_false] at hfound ⊢
        exact ih (Nat.le_of_succ_le_succ hfuel) hfound

/-- Removing any node, linked or not, leaves an order. -/
theorem Linked.of_findAndRemove (h : Linked list nodes) {fuel : ℕ}
    {found : SysSlist Node × Bool} (hfound : sysSlistFindAndRemove fuel list node = some found) :
    ∃ after, Linked found.1 after := by
  by_cases hmem : node ∈ nodes
  · obtain ⟨before, after, rfl⟩ := List.append_of_mem hmem
    have hremoved := h.findAndRemove (Nat.lt_succ_of_le (Nat.le_max_right fuel before.length))
    have hsame := findAndRemoveFrom_of_le
      (Nat.le_succ_of_le (Nat.le_max_left fuel before.length)) hfound
    obtain rfl := Option.some.inj (hremoved.symm.trans hsame)
    exact ⟨_, h.remove⟩
  · obtain rfl := h.order.findAndRemove_of_not_mem hmem hfound
    exact ⟨nodes, h⟩

omit [DecidableEq Node] in
/-- A loop that ends keeps what its body keeps. -/
theorem forEachFrom_links {σ : Type*} {links : σ → SysSlist Node} {body : Node → σ → σ}
    (hlinks : ∀ node state, links (body node state) = links state) {fuel : ℕ}
    {cursor : Option Node} {state final : σ}
    (hfinal : forEachFrom links body fuel cursor state = some final) :
    links final = links state := by
  induction fuel generalizing cursor state with
  | zero =>
    cases cursor with
    | none => rw [← Option.some.inj hfinal]
    | some node => simp [forEachFrom] at hfinal
  | succ fuel ih =>
    cases cursor with
    | none => rw [← Option.some.inj hfinal]
    | some node => exact (ih hfinal).trans (hlinks node state)

end Vodka.Zephyr.Walk
