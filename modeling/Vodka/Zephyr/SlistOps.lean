import Mathlib.Tactic
import Vodka.Zephyr.Slist

/-!
# The other operations of the list

What `sys/list_gen.h` generates besides append and remove: both ends, insertion
behind a node, taking the head off, joining a chain, the length, and the loop
that fetches the next node before its body runs. Each operation is stated on
the list of nodes that the links represent, with the links it leaves alone.
-/

namespace Vodka.Zephyr.Slist

open Foundation.Chain

variable {Node : Type*} [DecidableEq Node] {list : SysSlist Node} {node : Node} {nodes : List Node}

def sysSlistIsEmpty (list : SysSlist Node) : Bool := list.head.isNone

def sysSlistPeekNext (list : SysSlist Node) : Option Node → Option Node
  | none => none
  | some node => list.next node

/-- `Z_GENLIST_PREPEND`. -/
def sysSlistPrepend (list : SysSlist Node) (node : Node) : SysSlist Node :=
  let list := nextSet list node list.head
  let list := { list with head := some node }
  if list.tail = none then { list with tail := list.head } else list

/-- `Z_GENLIST_APPEND_LIST`. -/
def sysSlistAppendList (list : SysSlist Node) : Option Node → Option Node → SysSlist Node
  | some head, some tail =>
    let list :=
      match list.tail with
      | none => { list with head := some head }
      | some last => nextSet list last (some head)
    { list with tail := some tail }
  | _, _ => list

/-- `Z_GENLIST_INSERT`. -/
def sysSlistInsert (list : SysSlist Node) (prev : Option Node) (node : Node) : SysSlist Node :=
  match prev with
  | none => sysSlistPrepend list node
  | some prev =>
    match list.next prev with
    | none => sysSlistAppend list node
    | some following => nextSet (nextSet list node (some following)) prev (some node)

/-- `Z_GENLIST_GET_NOT_EMPTY`, with the head it reads the link of. -/
def sysSlistGetNotEmpty (list : SysSlist Node) (node : Node) : SysSlist Node × Node :=
  let list := { list with head := list.next node }
  let list := if list.tail = some node then { list with tail := list.head } else list
  (list, node)

/-- `Z_GENLIST_GET`. -/
def sysSlistGet (list : SysSlist Node) : SysSlist Node × Option Node :=
  match list.head with
  | none => (list, none)
  | some node =>
    let after := sysSlistGetNotEmpty list node
    (after.1, some after.2)

/-- `Z_GENLIST_LEN`. -/
def sysSlistLen (fuel : ℕ) (list : SysSlist Node) : Option ℕ :=
  (forEach fuel Prod.fst (fun _ state ↦ (state.1, state.2 + 1)) (list, 0)).map Prod.snd

/-- `Z_GENLIST_FOR_EACH_NODE_SAFE` from a node, with the one fetched before the body runs. -/
def forEachSafeFrom {σ : Type*} (links : σ → SysSlist Node) (body : Node → σ → σ) :
    ℕ → Option Node → Option Node → σ → Option σ
  | _, none, _, state => some state
  | 0, some _, _, _ => none
  | fuel + 1, some node, following, state =>
    let state := body node state
    forEachSafeFrom links body fuel following (sysSlistPeekNext (links state) following) state

def forEachSafe {σ : Type*} (fuel : ℕ) (links : σ → SysSlist Node) (body : Node → σ → σ)
    (state : σ) : Option σ :=
  let head := (links state).head
  forEachSafeFrom links body fuel head (sysSlistPeekNext (links state) head) state

omit [DecidableEq Node] in
theorem Represents.head_eq (h : Represents list nodes) : list.head = nodes.head? := by
  cases nodes with
  | nil => exact h.chain
  | cons first nodes => exact h.chain.1

omit [DecidableEq Node] in
theorem Represents.isEmpty_eq (h : Represents list nodes) :
    sysSlistIsEmpty list = nodes.isEmpty := by
  rw [sysSlistIsEmpty, h.head_eq]
  cases nodes <;> rfl

omit [DecidableEq Node] in
/-- What follows a node of the list. -/
theorem Represents.next_eq {before after : List Node}
    (h : Represents list (before ++ node :: after)) : list.next node = after.head? := by
  obtain ⟨middle, -, rfl, hend⟩ := segment_append.mp h.chain
  cases after with
  | nil => exact hend
  | cons first after => exact hend.1

theorem Represents.prepend (h : Represents list nodes) (hnode : node ∉ nodes) :
    Represents (sysSlistPrepend list node) (node :: nodes) := by
  have hchain : Segment (Function.update list.next node list.head) (some node) (node :: nodes)
      none := by
    refine ⟨rfl, ?_⟩
    rw [Function.update_self]
    exact h.chain.update hnode list.head
  have hnodup : (node :: nodes).Nodup := List.nodup_cons.mpr ⟨hnode, h.nodup⟩
  cases hlast : nodes.getLast? with
  | none =>
    have htail : list.tail = none := h.tail_eq.trans hlast
    obtain rfl := List.getLast?_eq_none_iff.mp hlast
    exact ⟨by simpa [sysSlistPrepend, nextSet, htail] using hchain, hnodup,
      by simp [sysSlistPrepend, nextSet, htail]⟩
  | some last =>
    have htail : list.tail = some last := h.tail_eq.trans hlast
    exact ⟨by simpa [sysSlistPrepend, nextSet, htail] using hchain, hnodup,
      by simp [sysSlistPrepend, nextSet, htail, List.getLast?_cons, hlast]⟩

/-- A chain of new nodes is joined by its ends. -/
theorem Represents.appendList {added : List Node} {first last : Node}
    (h : Represents list nodes) (hadded : Segment list.next (some first) added none)
    (hlast : added.getLast? = some last) (hdisjoint : List.Disjoint nodes added) :
    Represents (sysSlistAppendList list (some first) (some last)) (nodes ++ added) := by
  have hnodup : (nodes ++ added).Nodup :=
    List.nodup_append'.mpr ⟨h.nodup, hadded.nodup_of_chain, hdisjoint⟩
  have htail : (sysSlistAppendList list (some first) (some last)).tail =
      (nodes ++ added).getLast? := by
    rw [List.getLast?_append, hlast]
    rfl
  refine ⟨?_, hnodup, htail⟩
  rcases List.eq_nil_or_concat' nodes with rfl | ⟨before, end_, rfl⟩
  · have hempty : list.tail = none := h.tail_eq
    simpa [sysSlistAppendList, hempty] using hadded
  · have hend : list.tail = some end_ := by simpa using h.tail_eq
    have hbefore : end_ ∉ before := by
      simpa using (List.nodup_cons.mp (List.nodup_middle.mp h.nodup)).1
    have hnotAdded : end_ ∉ added := fun hmem ↦ hdisjoint (by simp) hmem
    obtain ⟨middle, hstart, rfl, -⟩ := segment_append.mp h.chain
    simp only [sysSlistAppendList, hend, nextSet, List.append_assoc]
    refine segment_append.mpr ⟨some end_, hstart.update hbefore _, rfl, ?_⟩
    rw [Function.update_self]
    exact hadded.update hnotAdded _

theorem Represents.insert_behind {before after : List Node} {prev : Node}
    (h : Represents list (before ++ prev :: after)) (hnode : node ∉ before ++ prev :: after) :
    Represents (sysSlistInsert list (some prev) node) (before ++ prev :: node :: after) := by
  have hnext := h.next_eq
  cases after with
  | nil =>
    have happended := h.append hnode
    simpa [sysSlistInsert, hnext] using happended
  | cons first after =>
    have hnodup := List.nodup_cons.mp (List.nodup_middle.mp h.nodup)
    rw [List.mem_append, List.mem_cons, not_or, not_or] at hnode
    have hbefore : prev ∉ before := fun hmem ↦ hnodup.1 (by simp [hmem])
    have hafter : prev ∉ first :: after := fun hmem ↦ hnodup.1 (List.mem_append_right _ hmem)
    obtain ⟨middle, hstart, rfl, hend⟩ := segment_append.mp h.chain
    refine ⟨?_, ?_, ?_⟩
    · simp only [sysSlistInsert, hnext, List.head?_cons, nextSet]
      refine segment_append.mpr ⟨some prev,
        (hstart.update hnode.1 _).update hbefore _, rfl, ?_, ?_⟩
      · rw [Function.update_self]
      · rw [Function.update_of_ne hnode.2.1, Function.update_self]
        rw [hnext] at hend
        exact (hend.update hnode.2.2 _).update hafter _
    · have hsplit : before ++ prev :: node :: first :: after =
          (before ++ [prev]) ++ node :: first :: after := by simp
      rw [hsplit, List.nodup_middle, List.nodup_cons]
      simpa [and_assoc] using And.intro hnode h.nodup
    · simp only [sysSlistInsert, hnext, List.head?_cons, nextSet]
      rw [h.tail_eq]
      simp only [List.getLast?_append, List.getLast?_cons_cons]

/-- The head comes off, with its link as it was. -/
theorem Represents.get (h : Represents list (node :: nodes)) :
    (sysSlistGet list).2 = some node ∧ Represents (sysSlistGet list).1 nodes := by
  have hnodup := List.nodup_cons.mp h.nodup
  have htail :=
    (List.nil_append (node :: nodes) ▸ h : Represents list ([] ++ node :: nodes)).tail_iff
  obtain ⟨hhead, hchain⟩ := h.chain
  refine ⟨by simp [sysSlistGet, sysSlistGetNotEmpty, hhead], ?_⟩
  by_cases hend : nodes = []
  · subst hend
    rw [segment_nil] at hchain
    refine ⟨?_, hnodup.2, ?_⟩ <;> simp [sysSlistGet, sysSlistGetNotEmpty, hhead, htail, hchain]
  · have hkept : list.tail = nodes.getLast? := by
      obtain ⟨inner, last, rfl⟩ := (List.eq_nil_or_concat' nodes).resolve_left hend
      simpa [List.getLast?_cons] using h.tail_eq
    refine ⟨?_, hnodup.2, ?_⟩ <;>
      simp only [sysSlistGet, sysSlistGetNotEmpty, hhead, htail, hend, if_false]
    · exact hchain
    · exact hkept

omit [DecidableEq Node] in
theorem Represents.len_eq {fuel : ℕ} (h : Represents list nodes) (hfuel : nodes.length ≤ fuel) :
    sysSlistLen fuel list = some nodes.length := by
  have hfold : ∀ (rest : List Node) (count : ℕ),
      rest.foldl (fun state _ ↦ (state.1, state.2 + 1)) (list, count) =
        (list, count + rest.length) := by
    intro rest
    induction rest with
    | nil => simp
    | cons node rest ih =>
      intro count
      rw [List.foldl_cons, ih, List.length_cons]
      simp only [Prod.mk.injEq, true_and]
      omega
  have hloop : forEach fuel Prod.fst (fun _ state ↦ (state.1, state.2 + 1)) (list, 0) =
      some (nodes.foldl (fun state _ ↦ (state.1, state.2 + 1)) (list, 0)) := by
    apply Represents.forEach_eq_foldl _ _ hfuel
    · exact fun _ _ ↦ rfl
    · exact h
  simp [sysSlistLen, hloop, hfold]

/-! ## Links left alone -/

/-- Only the links of the given nodes are written. -/
def WritesOnly (before after : SysSlist Node) (nodes : List Node) : Prop :=
  ∀ other ∉ nodes, after.next other = before.next other

theorem writesOnly_nextSet (list : SysSlist Node) {parent : Node} (hparent : parent ∈ nodes)
    (child : Option Node) : WritesOnly list (nextSet list parent child) nodes :=
  fun _ hother ↦ Function.update_of_ne (ne_of_mem_of_not_mem hparent hother).symm _ _

omit [DecidableEq Node] in
theorem WritesOnly.trans {first second third : SysSlist Node}
    (h : WritesOnly first second nodes) (hnext : WritesOnly second third nodes) :
    WritesOnly first third nodes :=
  fun other hother ↦ (hnext other hother).trans (h other hother)

omit [DecidableEq Node] in
theorem writesOnly_of_eq {first second : SysSlist Node} (h : second.next = first.next) :
    WritesOnly first second nodes :=
  fun _ _ ↦ congrFun h _

omit [DecidableEq Node] in
theorem Represents.tail_mem (h : Represents list nodes) {last : Node}
    (hlast : list.tail = some last) : last ∈ nodes :=
  List.mem_of_getLast? (h.tail_eq.symm.trans hlast)

theorem Represents.append_writes (h : Represents list nodes) (node : Node) :
    WritesOnly list (sysSlistAppend list node) (node :: nodes) := by
  have hfirst := writesOnly_nextSet list (List.mem_cons_self : node ∈ node :: nodes) none
  cases htail : list.tail with
  | none => simpa [sysSlistAppend, nextSet, htail, WritesOnly] using hfirst
  | some last =>
    have hlast := writesOnly_nextSet (nextSet list node none)
      (List.mem_cons_of_mem node (h.tail_mem htail)) (some node)
    simpa [sysSlistAppend, nextSet, htail, WritesOnly] using hfirst.trans hlast

theorem sysSlistPrepend_writes (list : SysSlist Node) (node : Node) :
    WritesOnly list (sysSlistPrepend list node) (node :: nodes) := by
  have hfirst := writesOnly_nextSet list (List.mem_cons_self : node ∈ node :: nodes) list.head
  cases htail : list.tail <;> simpa [sysSlistPrepend, nextSet, htail, WritesOnly] using hfirst

theorem Represents.appendList_writes (h : Represents list nodes) (head tail : Option Node) :
    WritesOnly list (sysSlistAppendList list head tail) nodes := by
  cases head with
  | none => exact writesOnly_of_eq rfl
  | some head =>
    cases tail with
    | none => exact writesOnly_of_eq rfl
    | some tail =>
      cases hlast : list.tail with
      | none => exact writesOnly_of_eq (by simp [sysSlistAppendList, hlast])
      | some last =>
        have hwrite := writesOnly_nextSet list (h.tail_mem hlast) (some head)
        simpa [sysSlistAppendList, nextSet, hlast, WritesOnly] using hwrite

theorem Represents.insert_writes (h : Represents list nodes) {prev : Option Node}
    (hprev : ∀ other, prev = some other → other ∈ nodes) (node : Node) :
    WritesOnly list (sysSlistInsert list prev node) (node :: nodes) := by
  cases prev with
  | none => exact sysSlistPrepend_writes list node
  | some prev =>
    cases hnext : list.next prev with
    | none => simpa [sysSlistInsert, hnext] using h.append_writes node
    | some following =>
      have hfirst := writesOnly_nextSet list (List.mem_cons_self : node ∈ node :: nodes)
        (some following)
      have hlast := writesOnly_nextSet (nextSet list node (some following))
        (List.mem_cons_of_mem node (hprev prev rfl)) (some node)
      simpa [sysSlistInsert, hnext] using hfirst.trans hlast

theorem sysSlistGet_next (list : SysSlist Node) :
    (sysSlistGet list).1.next = list.next := by
  unfold sysSlistGet sysSlistGetNotEmpty
  cases list.head with
  | none => rfl
  | some node => dsimp only; split_ifs <;> rfl

theorem sysSlistRemove_writes (list : SysSlist Node) {prev : Option Node}
    (hprev : ∀ other, prev = some other → other ∈ nodes) (hnode : node ∈ nodes) :
    WritesOnly list (sysSlistRemove list prev node) nodes := by
  unfold sysSlistRemove
  refine WritesOnly.trans ?_ (writesOnly_nextSet _ hnode none)
  cases prev with
  | none => dsimp only; split_ifs <;> exact writesOnly_of_eq rfl
  | some prev =>
    have hwrite := writesOnly_nextSet list (hprev prev rfl) (list.next node)
    dsimp only
    split_ifs <;> exact hwrite

/-- The search writes where it has been. -/
theorem findAndRemoveFrom_writes {fuel : ℕ} {prev cursor : Option Node} {rest : List Node}
    {found : SysSlist Node × Bool} (hcursor : Segment list.next cursor rest none)
    (hrest : rest ⊆ nodes) (hprev : ∀ other, prev = some other → other ∈ nodes)
    (hfound : findAndRemoveFrom list node fuel prev cursor = some found) :
    WritesOnly list found.1 nodes := by
  induction fuel generalizing prev cursor rest with
  | zero =>
    cases cursor with
    | none => exact writesOnly_of_eq (by rw [← Option.some.inj hfound])
    | some test => simp [findAndRemoveFrom] at hfound
  | succ fuel ih =>
    cases cursor with
    | none => exact writesOnly_of_eq (by rw [← Option.some.inj hfound])
    | some test =>
      cases rest with
      | nil => simp at hcursor
      | cons first rest =>
        obtain ⟨hfirst, hsegment⟩ := hcursor
        obtain rfl := Option.some.inj hfirst
        rw [List.cons_subset] at hrest
        unfold findAndRemoveFrom at hfound
        split_ifs at hfound with heq
        · rw [← Option.some.inj hfound]
          exact sysSlistRemove_writes list hprev (heq ▸ hrest.1)
        · refine ih hsegment hrest.2 ?_ hfound
          intro other hother
          rw [← Option.some.inj hother]
          exact hrest.1

theorem Represents.findAndRemove_writes (h : Represents list nodes) {fuel : ℕ}
    {found : SysSlist Node × Bool} (hfound : sysSlistFindAndRemove fuel list node = some found) :
    WritesOnly list found.1 nodes :=
  findAndRemoveFrom_writes h.chain (List.Subset.refl nodes) (by simp) hfound

/-! ## Removing inside a loop -/

/-- A loop body that takes some nodes out of the list and records every node it sees. -/
def removing (fuel : ℕ) (keep : Node → Bool) (node : Node) (state : SysSlist Node × List Node) :
    SysSlist Node × List Node :=
  let seen := state.2 ++ [node]
  if keep node then (state.1, seen)
  else ((sysSlistFindAndRemove fuel state.1 node).elim state.1 Prod.fst, seen)

theorem removing_of_not_keep {keep : Node → Bool} {fuel : ℕ} {before after : List Node}
    (h : Represents list (before ++ node :: after)) (hkeep : keep node = false)
    (hfuel : (before ++ node :: after).length ≤ fuel) (seen : List Node) :
    ∃ list', removing fuel keep node (list, seen) = (list', seen ++ [node]) ∧
      list'.next node = none ∧ Represents list' (before ++ after) := by
  obtain ⟨middle, hstart, rfl, -⟩ := segment_append.mp h.chain
  have hbefore : node ∉ before := fun hmem ↦
    (List.nodup_cons.mp (List.nodup_middle.mp h.nodup)).1 (by simp [hmem])
  have hfound := findAndRemoveFrom_of_passed none hstart hbefore (lt_of_lt_of_le (by simp) hfuel)
  rw [Option.or_none] at hfound
  refine ⟨sysSlistRemove list before.getLast? node, ?_, ?_, h.remove⟩
  · simp [removing, hkeep, sysSlistFindAndRemove, hfound]
  · simp [sysSlistRemove, nextSet]

theorem forEachSafeFrom_removing {keep : Node → Bool} {size : ℕ} {kept rest : List Node}
    (h : Represents list (kept ++ rest)) (hsize : (kept ++ rest).length ≤ size) {fuel : ℕ}
    (hfuel : rest.length ≤ fuel) (seen : List Node) :
    ∃ final, forEachSafeFrom Prod.fst (removing size keep) fuel rest.head? rest.tail.head?
        (list, seen) = some (final, seen ++ rest) ∧
      Represents final (kept ++ rest.filter keep) := by
  induction rest generalizing list kept fuel seen with
  | nil => exact ⟨list, by simp [forEachSafeFrom], h⟩
  | cons node rest ih =>
    obtain ⟨fuel, rfl⟩ := Nat.exists_eq_succ_of_ne_zero (Nat.ne_zero_of_lt hfuel)
    have hrest : rest.length ≤ fuel := by simpa using hfuel
    obtain ⟨list', kept', hbody, hlist', hkept', hlength⟩ : ∃ list' kept',
        removing size keep node (list, seen) = (list', seen ++ [node]) ∧
          Represents list' (kept' ++ rest) ∧
          kept' ++ rest.filter keep = kept ++ (node :: rest).filter keep ∧
          (kept' ++ rest).length ≤ size := by
      by_cases hkeep : keep node
      · refine ⟨list, kept ++ [node], by simp [removing, hkeep], ?_, ?_, ?_⟩
        · rwa [List.append_assoc, List.singleton_append]
        · simp [hkeep]
        · simpa using hsize
      · rw [Bool.not_eq_true] at hkeep
        obtain ⟨list', hbody, -, hlist'⟩ := removing_of_not_keep h hkeep hsize seen
        refine ⟨list', kept, hbody, hlist', by simp [hkeep], ?_⟩
        simp only [List.length_append, List.length_cons] at hsize ⊢
        omega
    have hfollowing : sysSlistPeekNext list' rest.head? = rest.tail.head? := by
      cases rest with
      | nil => rfl
      | cons first rest => exact hlist'.next_eq
    obtain ⟨final, hloop, hfinal⟩ := ih hlist' hlength hrest (seen ++ [node])
    refine ⟨final, ?_, hkept' ▸ hfinal⟩
    simp only [List.head?_cons, List.tail_cons, forEachSafeFrom, hbody, hfollowing]
    rw [hloop, List.append_assoc, List.singleton_append]

theorem forEachFrom_removing {keep : Node → Bool} {size : ℕ} {kept rest : List Node}
    (h : Represents list (kept ++ rest)) (hsize : (kept ++ rest).length ≤ size) {fuel : ℕ}
    (hfuel : rest.length ≤ fuel) (seen : List Node) :
    ∃ final, forEachFrom Prod.fst (removing size keep) fuel rest.head? (list, seen) =
        some (final, seen ++ rest.takeWhile keep ++ (rest.find? (!keep ·)).toList) ∧
      Represents final (kept ++ rest.eraseP (!keep ·)) := by
  induction rest generalizing list kept fuel seen with
  | nil => exact ⟨list, by simp [forEachFrom], h⟩
  | cons node rest ih =>
    obtain ⟨fuel, rfl⟩ := Nat.exists_eq_succ_of_ne_zero (Nat.ne_zero_of_lt hfuel)
    have hrest : rest.length ≤ fuel := by simpa using hfuel
    by_cases hkeep : keep node
    · have hlist : Represents list ((kept ++ [node]) ++ rest) := by
        rwa [List.append_assoc, List.singleton_append]
      obtain ⟨final, hloop, hfinal⟩ := ih hlist (by simpa using hsize) hrest (seen ++ [node])
      refine ⟨final, ?_, by simpa [hkeep] using hfinal⟩
      simp only [List.head?_cons, forEachFrom, removing, hkeep, if_true, h.next_eq]
      rw [hloop]
      simp [hkeep]
    · rw [Bool.not_eq_true] at hkeep
      obtain ⟨final, hbody, hnext, hfinal⟩ := removing_of_not_keep h hkeep hsize seen
      refine ⟨final, ?_, by simpa [hkeep] using hfinal⟩
      simp [forEachFrom, hbody, hnext, hkeep]

/-- **Removal in a loop.** The safe loop shows every node once to a body that removes nodes and
leaves the others; the plain loop ends behind the first node that is removed. -/
theorem removing_loops (h : Represents list nodes) (keep : Node → Bool) {fuel : ℕ}
    (hfuel : nodes.length ≤ fuel) :
    (∃ final, forEachSafe fuel Prod.fst (removing fuel keep) (list, []) = some (final, nodes) ∧
        Represents final (nodes.filter keep)) ∧
      ∃ final, forEach fuel Prod.fst (removing fuel keep) (list, []) =
          some (final, nodes.takeWhile keep ++ (nodes.find? (!keep ·)).toList) ∧
        Represents final (nodes.eraseP (!keep ·)) := by
  have hfollowing : sysSlistPeekNext list nodes.head? = nodes.tail.head? := by
    cases nodes with
    | nil => rfl
    | cons first nodes => exact (show Represents list ([] ++ first :: nodes) from h).next_eq
  have hwhole : Represents list ([] ++ nodes) := h
  have hsafe : ∃ final, forEachSafeFrom Prod.fst (removing fuel keep) fuel nodes.head?
      nodes.tail.head? (list, []) = some (final, nodes) ∧
        Represents final (nodes.filter keep) :=
    forEachSafeFrom_removing hwhole hfuel hfuel []
  have hplain : ∃ final, forEachFrom Prod.fst (removing fuel keep) fuel nodes.head? (list, []) =
      some (final, nodes.takeWhile keep ++ (nodes.find? (!keep ·)).toList) ∧
        Represents final (nodes.eraseP (!keep ·)) :=
    forEachFrom_removing hwhole hfuel hfuel []
  constructor
  · simpa [forEachSafe, h.head_eq, hfollowing] using hsafe
  · simpa [forEach, h.head_eq] using hplain

/-- The numbers below the count, appended in order. -/
def numbered (count : ℕ) : SysSlist ℕ :=
  (List.range count).foldl sysSlistAppend ⟨none, none, fun _ ↦ none⟩

theorem represents_numbered (count : ℕ) : Represents (numbered count) (List.range count) := by
  induction count with
  | zero => exact represents_init ⟨none, none, fun _ ↦ none⟩
  | succ count ih =>
    rw [List.range_succ, numbered, List.range_succ, List.foldl_append]
    exact ih.append (by simp)

/-- Of five numbers the safe loop keeps the even ones, and the plain one ends behind the first
odd one. -/
theorem removing_loops_numbered :
    (∃ final, forEachSafe 5 Prod.fst (removing 5 (· % 2 == 0)) (numbered 5, []) =
        some (final, [0, 1, 2, 3, 4]) ∧ Represents final [0, 2, 4]) ∧
      ∃ final, forEach 5 Prod.fst (removing 5 (· % 2 == 0)) (numbered 5, []) =
          some (final, [0, 1]) ∧ Represents final [0, 2, 3, 4] :=
  removing_loops (represents_numbered 5) (· % 2 == 0) le_rfl

end Vodka.Zephyr.Slist
