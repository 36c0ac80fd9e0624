import Mathlib.Tactic
import Vodka.Foundation.Simulation
import Vodka.Zephyr.SlistOps

/-!
# Lists that share their nodes' memory

A node has one link word, whichever list it is in, so that an operation on one
list writes into the memory of all. The operations are put together here over
any number of list objects. As long as no node is handed to a list while it is
in one, each list behaves as a list of its own: a call changes the lists it
names as its purpose says, and no other.
-/

namespace Vodka.Zephyr.SharedNodes

open Foundation.Chain Foundation.Simulation Slist

variable {Id Node : Type*} [DecidableEq Id] [DecidableEq Node]

/-- The list objects and the link word of every node. -/
structure ListHeap (Id Node : Type*) where
  head : Id → Option Node
  tail : Id → Option Node
  next : Node → Option Node

namespace ListHeap

variable (heap : ListHeap Id Node)

omit [DecidableEq Id] [DecidableEq Node] in
/-- One list object with the links. -/
def list (i : Id) : SysSlist Node := ⟨heap.head i, heap.tail i, heap.next⟩

def set (i : Id) (list : SysSlist Node) : ListHeap Id Node where
  head := Function.update heap.head i list.head
  tail := Function.update heap.tail i list.tail
  next := list.next

/-- `Z_GENLIST_MERGE_LIST`. -/
def sysSlistMergeSlist (i toAppend : Id) : ListHeap Id Node :=
  let head := (heap.list toAppend).head
  let tail := (heap.list toAppend).tail
  let heap := heap.set i (sysSlistAppendList (heap.list i) head tail)
  heap.set toAppend (sysSlistInit (heap.list toAppend))

omit [DecidableEq Node] in
@[simp]
theorem next_set (i : Id) (list : SysSlist Node) : (heap.set i list).next = list.next := rfl

omit [DecidableEq Node] in
@[simp]
theorem list_set_self (i : Id) (list : SysSlist Node) : (heap.set i list).list i = list := by
  simp [ListHeap.list, set]

omit [DecidableEq Node] in
theorem list_set_of_ne {i j : Id} (h : j ≠ i) (list : SysSlist Node) :
    (heap.set i list).list j = { heap.list j with next := list.next } := by
  simp [ListHeap.list, set, h]

end ListHeap

inductive Call (Id Node : Type*)
  | init (i : Id)
  | append (i : Id) (node : Node)
  | prepend (i : Id) (node : Node)
  | insert (i : Id) (prev : Option Node) (node : Node)
  | get (i : Id)
  | remove (i : Id) (prev : Option Node) (node : Node)
  | findAndRemove (i : Id) (node : Node)
  | merge (i toAppend : Id)
  | isEmpty (i : Id)
  | len (i : Id)

inductive Answer (Node : Type*)
  | void
  | node (node : Option Node)
  | bool (value : Bool)
  | size (value : ℕ)

/-- One call. A loop over a list has the fuel of the call. -/
def step (fuel : ℕ) (heap : ListHeap Id Node) :
    Call Id Node → Option (ListHeap Id Node × Answer Node)
  | .init i => some (heap.set i (sysSlistInit (heap.list i)), .void)
  | .append i node => some (heap.set i (sysSlistAppend (heap.list i) node), .void)
  | .prepend i node => some (heap.set i (sysSlistPrepend (heap.list i) node), .void)
  | .insert i prev node => some (heap.set i (sysSlistInsert (heap.list i) prev node), .void)
  | .get i =>
    let after := sysSlistGet (heap.list i)
    some (heap.set i after.1, .node after.2)
  | .remove i prev node => some (heap.set i (sysSlistRemove (heap.list i) prev node), .void)
  | .findAndRemove i node =>
    (sysSlistFindAndRemove fuel (heap.list i) node).map fun found ↦
      (heap.set i found.1, .bool found.2)
  | .merge i toAppend => some (heap.sysSlistMergeSlist i toAppend, .void)
  | .isEmpty i => some (heap, .bool (sysSlistIsEmpty (heap.list i)))
  | .len i => (sysSlistLen fuel (heap.list i)).map fun len ↦ (heap, .size len)

/-- The node goes behind `prev`, or to the front. -/
def insertBehind (node : Node) : Option Node → List Node → List Node
  | none, nodes => node :: nodes
  | some _, [] => []
  | some prev, first :: nodes =>
    if first = prev then first :: node :: nodes else first :: insertBehind node (some prev) nodes

/-- Each list is a list of nodes of its own. A node that is put into a list is in none, and a
removal names the node in front. -/
def lists : Purpose (Id → List Node) (Call Id Node) (Answer Node) where
  Meant lists
    | .append _ node | .prepend _ node => ∀ i, node ∉ lists i
    | .insert i prev node => (∀ i, node ∉ lists i) ∧ ∀ other, prev = some other → other ∈ lists i
    | .remove i prev node =>
      ∃ before after, lists i = before ++ node :: after ∧ prev = before.getLast?
    | _ => True
  next lists
    | .init i => Function.update lists i []
    | .append i node => Function.update lists i (lists i ++ [node])
    | .prepend i node => Function.update lists i (node :: lists i)
    | .insert i prev node => Function.update lists i (insertBehind node prev (lists i))
    | .get i => Function.update lists i (lists i).tail
    | .remove i _ node => Function.update lists i ((lists i).erase node)
    | .findAndRemove i node => Function.update lists i ((lists i).erase node)
    | .merge i toAppend =>
      Function.update (Function.update lists i (lists i ++ lists toAppend)) toAppend []
    | .isEmpty _ => lists
    | .len _ => lists
  answer lists
    | .get i => .node (lists i).head?
    | .findAndRemove i node => .bool (decide (node ∈ lists i))
    | .isEmpty i => .bool (lists i).isEmpty
    | .len i => .size (lists i).length
    | _ => .void

/-! ## One call -/

/-- Every list object represents its list, and no node is in two of them. -/
structure Holds (heap : ListHeap Id Node) (nodes : Id → List Node) : Prop where
  represents : ∀ i, Represents (heap.list i) (nodes i)
  disjoint : ∀ i j, i ≠ j → List.Disjoint (nodes i) (nodes j)

variable {heap : ListHeap Id Node} {nodes : Id → List Node} {i : Id} {node : Node}

omit [DecidableEq Node] in
/-- The frame rule: a call on one list, and on nodes that are in no other, leaves the others. -/
theorem Holds.set (h : Holds heap nodes) (added : List Node) {list : SysSlist Node}
    {after : List Node} (hlist : Represents list after) (hafter : after ⊆ added ++ nodes i)
    (hfresh : ∀ j ≠ i, List.Disjoint added (nodes j))
    (hwrites : WritesOnly (heap.list i) list (added ++ nodes i)) :
    Holds (heap.set i list) (Function.update nodes i after) := by
  have hother : ∀ j ≠ i, List.Disjoint (added ++ nodes i) (nodes j) := by
    intro j hj
    exact List.disjoint_append_left.mpr ⟨hfresh j hj, h.disjoint i j hj.symm⟩
  constructor
  · intro j
    rcases eq_or_ne j i with rfl | hj
    · simpa using hlist
    · rw [ListHeap.list_set_of_ne _ hj, Function.update_of_ne hj]
      have hold := h.represents j
      refine ⟨hold.chain.congr fun other hmem ↦ ?_, hold.nodup, hold.tail_eq⟩
      exact hwrites other fun htouched ↦ hother j hj htouched hmem
  · intro j k hjk
    rcases eq_or_ne j i with rfl | hj
    · rw [Function.update_self, Function.update_of_ne hjk.symm]
      exact List.disjoint_of_subset_left hafter (hother k hjk.symm)
    · rcases eq_or_ne k i with rfl | hk
      · rw [Function.update_self, Function.update_of_ne hj]
        exact (List.disjoint_of_subset_left hafter (hother j hj)).symm
      · rw [Function.update_of_ne hj, Function.update_of_ne hk]
        exact h.disjoint j k hjk

omit [DecidableEq Node] in
/-- The frame rule for a call that puts a node into a list. -/
theorem Holds.set_insert (h : Holds heap nodes) {list : SysSlist Node} {after : List Node}
    (hlist : Represents list after) (hafter : after ⊆ node :: nodes i)
    (hfresh : ∀ j, node ∉ nodes j) (hwrites : WritesOnly (heap.list i) list (node :: nodes i)) :
    Holds (heap.set i list) (Function.update nodes i after) :=
  h.set [node] hlist hafter
    (fun j _ ↦ List.singleton_disjoint.mpr (hfresh j)) hwrites

omit [DecidableEq Node] in
/-- The frame rule for a call that puts no node into a list. -/
theorem Holds.set_shrink (h : Holds heap nodes) {list : SysSlist Node} {after : List Node}
    (hlist : Represents list after) (hafter : after ⊆ nodes i)
    (hwrites : WritesOnly (heap.list i) list (nodes i)) :
    Holds (heap.set i list) (Function.update nodes i after) :=
  h.set [] hlist hafter (fun _ _ ↦ List.disjoint_nil_left _) hwrites

omit [DecidableEq Node] in
theorem Holds.init (h : Holds heap nodes) (i : Id) :
    Holds (heap.set i (sysSlistInit (heap.list i))) (Function.update nodes i []) :=
  h.set_shrink (represents_init _) (List.nil_subset _) (writesOnly_of_eq rfl)

/-- A list is joined to another one and is empty afterwards, also when it is joined to itself. -/
theorem Holds.merge (h : Holds heap nodes) (i toAppend : Id) :
    Holds (heap.sysSlistMergeSlist i toAppend)
      (Function.update (Function.update nodes i (nodes i ++ nodes toAppend)) toAppend []) := by
  have hwrites := (h.represents i).appendList_writes (heap.list toAppend).head
    (heap.list toAppend).tail
  rcases eq_or_ne i toAppend with rfl | hne
  · have hmerged : heap.sysSlistMergeSlist i i = heap.set i (sysSlistInit
        (sysSlistAppendList (heap.list i) (heap.list i).head (heap.list i).tail)) := by
      simp [ListHeap.sysSlistMergeSlist, ListHeap.set, sysSlistInit, ListHeap.list]
    rw [hmerged, Function.update_idem]
    exact h.set_shrink (represents_init _) (List.nil_subset _) hwrites
  · -- The other list is emptied first, so that its nodes are in no list.
    have hempty := h.init toAppend
    have hmerged : heap.sysSlistMergeSlist i toAppend =
        (heap.set toAppend (sysSlistInit (heap.list toAppend))).set i
          (sysSlistAppendList (heap.list i) (heap.list toAppend).head
            (heap.list toAppend).tail) := by
      simp [ListHeap.sysSlistMergeSlist, ListHeap.set, sysSlistInit, ListHeap.list,
        Function.update_comm hne]
    have hsame : (heap.set toAppend (sysSlistInit (heap.list toAppend))).list i = heap.list i :=
      ListHeap.list_set_of_ne _ hne _
    have hjoined : Represents (sysSlistAppendList (heap.list i) (heap.list toAppend).head
        (heap.list toAppend).tail) (nodes i ++ nodes toAppend) := by
      have hother := h.represents toAppend
      cases hnodes : nodes toAppend with
      | nil =>
        have hhead : (heap.list toAppend).head = none := by rw [hother.head_eq, hnodes]; rfl
        simpa [sysSlistAppendList, hhead] using h.represents i
      | cons first rest =>
        have hhead : (heap.list toAppend).head = some first := by
          rw [hother.head_eq, hnodes, List.head?_cons]
        obtain ⟨last, hlast⟩ : ∃ last, (heap.list toAppend).tail = some last :=
          Option.isSome_iff_exists.mp (by rw [hother.tail_eq, hnodes]; simp)
        rw [hhead, hlast, ← hnodes]
        refine (h.represents i).appendList ?_ (hother.tail_eq.symm.trans hlast)
          (h.disjoint i toAppend hne)
        exact hhead ▸ hother.chain
    have hnodes : Function.update nodes toAppend [] i = nodes i := Function.update_of_ne hne _ _
    rw [hmerged, Function.update_comm hne]
    refine hempty.set (nodes toAppend) hjoined ?_ ?_ ?_
    · rw [hnodes]
      exact List.append_subset.mpr ⟨List.subset_append_right _ _, List.subset_append_left _ _⟩
    · intro j hj
      rcases eq_or_ne j toAppend with rfl | hjoin
      · simp
      · rw [Function.update_of_ne hjoin]
        exact h.disjoint toAppend j hjoin.symm
    · rw [hsame, hnodes]
      exact fun other hother ↦ hwrites other fun hmem ↦ hother (List.mem_append_right _ hmem)

@[simp]
theorem insertBehind_none (node : Node) (nodes : List Node) :
    insertBehind node none nodes = node :: nodes := by
  cases nodes <;> rfl

theorem insertBehind_some {prev : Node} {before after : List Node} (hprev : prev ∉ before) :
    insertBehind node (some prev) (before ++ prev :: after) = before ++ prev :: node :: after := by
  induction before with
  | nil => simp [insertBehind]
  | cons first before ih =>
    rw [List.mem_cons, not_or] at hprev
    simp [insertBehind, Ne.symm hprev.1, ih hprev.2]

theorem insertBehind_subset (node : Node) (prev : Option Node) (nodes : List Node) :
    insertBehind node prev nodes ⊆ node :: nodes := by
  cases prev with
  | none => rw [insertBehind_none]; exact List.Subset.refl _
  | some prev =>
    induction nodes with
    | nil => exact List.nil_subset _
    | cons first nodes ih =>
      intro other hother
      unfold insertBehind at hother
      split_ifs at hother with hfirst
      · simp only [List.mem_cons] at hother ⊢
        tauto
      · rw [List.mem_cons] at hother
        rcases hother with rfl | hother
        · simp
        · have hmem := ih hother
          simp only [List.mem_cons] at hmem ⊢
          tauto

omit [DecidableEq Id] in
theorem Holds.insert (h : Holds heap nodes) {prev : Option Node} (hfresh : ∀ j, node ∉ nodes j)
    (hprev : ∀ other, prev = some other → other ∈ nodes i) :
    Represents (sysSlistInsert (heap.list i) prev node) (insertBehind node prev (nodes i)) := by
  have hlist := h.represents i
  cases prev with
  | none =>
    rw [insertBehind_none]
    exact hlist.prepend (hfresh i)
  | some prev =>
    obtain ⟨before, after, hsplit, hbefore⟩ := List.eq_append_cons_of_mem (hprev prev rfl)
    have hnode := hfresh i
    rw [hsplit] at hlist hnode ⊢
    rw [insertBehind_some hbefore]
    exact hlist.insert_behind hnode

theorem erase_middle {before after : List Node} (h : (before ++ node :: after).Nodup) :
    (before ++ node :: after).erase node = before ++ after := by
  have hbefore : node ∉ before := fun hmem ↦
    (List.nodup_cons.mp (List.nodup_middle.mp h)).1 (by simp [hmem])
  rw [List.erase_append_right _ hbefore, List.erase_cons_head]

/-- What a meant call does and answers, when its loops have fuel for every list. -/
theorem step_of_meant (h : Holds heap nodes) {fuel : ℕ} (hfuel : ∀ i, (nodes i).length ≤ fuel)
    {call : Call Id Node} (hmeant : lists.Meant nodes call) :
    ∃ next, step fuel heap call = some (next, lists.answer nodes call) ∧
      Holds next (lists.next nodes call) := by
  cases call with
  | init i => exact ⟨_, rfl, h.init i⟩
  | append i node =>
    refine ⟨_, rfl, h.set_insert ((h.represents i).append (hmeant i)) ?_ hmeant
      ((h.represents i).append_writes node)⟩
    exact List.append_subset.mpr ⟨List.subset_cons_self _ _, by simp⟩
  | prepend i node =>
    exact ⟨_, rfl, h.set_insert ((h.represents i).prepend (hmeant i)) (List.Subset.refl _) hmeant
      (sysSlistPrepend_writes _ node)⟩
  | insert i prev node =>
    exact ⟨_, rfl, h.set_insert (h.insert hmeant.1 hmeant.2) (insertBehind_subset node prev _)
      hmeant.1 ((h.represents i).insert_writes hmeant.2 node)⟩
  | get i =>
    have hlist := h.represents i
    have hwrites : WritesOnly (heap.list i) (sysSlistGet (heap.list i)).1 (nodes i) :=
      writesOnly_of_eq (sysSlistGet_next _)
    cases hnodes : nodes i with
    | nil =>
      have hhead : (heap.list i).head = none := by rw [hlist.head_eq, hnodes]; rfl
      have hget : sysSlistGet (heap.list i) = (heap.list i, none) := by
        rw [sysSlistGet, hhead]
      refine ⟨heap.set i (heap.list i), by simp [step, lists, hget, hnodes], ?_⟩
      exact h.set_shrink (by rwa [hnodes] at hlist ⊢) (List.tail_subset _)
        (writesOnly_of_eq rfl)
    | cons first rest =>
      rw [hnodes] at hlist
      obtain ⟨hanswer, hrest⟩ := hlist.get
      refine ⟨heap.set i (sysSlistGet (heap.list i)).1,
        by simp [step, lists, hanswer, hnodes], ?_⟩
      exact h.set_shrink (by rwa [hnodes]) (List.tail_subset _) hwrites
  | remove i prev node =>
    obtain ⟨before, after, hsplit, rfl⟩ := hmeant
    have hlist := h.represents i
    refine ⟨_, rfl,
      h.set_shrink ?_ List.erase_subset (sysSlistRemove_writes _ ?_ (by simp [hsplit]))⟩
    · rw [hsplit] at hlist ⊢
      rw [erase_middle hlist.nodup]
      exact hlist.remove
    · intro other hother
      rw [hsplit]
      exact List.mem_append_left _ (List.mem_of_getLast? hother)
  | findAndRemove i node =>
    obtain ⟨list', hfound, hlist'⟩ := (h.represents i).findAndRemove (hfuel i) node
    refine ⟨heap.set i list', by simp [step, lists, hfound], ?_⟩
    exact h.set_shrink hlist' List.erase_subset ((h.represents i).findAndRemove_writes hfound)
  | merge i toAppend => exact ⟨_, rfl, h.merge i toAppend⟩
  | isEmpty i => exact ⟨heap, by simp [step, lists, (h.represents i).isEmpty_eq], h⟩
  | len i => exact ⟨heap, by simp [step, lists, (h.represents i).len_eq (hfuel i)], h⟩

/-! ## Runs -/

/-- The node that a call puts into a list. -/
def Call.added : Call Id Node → List Node
  | .append _ node | .prepend _ node | .insert _ _ node => [node]
  | _ => []

omit [DecidableEq Id] [DecidableEq Node] in
theorem Call.length_added_le (call : Call Id Node) : call.added.length ≤ 1 := by
  cases call <;> simp [Call.added]

/-- A list only ever holds nodes that were put into some list. -/
theorem next_subset {seen : List Node} (h : ∀ i, nodes i ⊆ seen) (call : Call Id Node) (j : Id) :
    lists.next nodes call j ⊆ call.added ++ seen := by
  have hkept : nodes j ⊆ call.added ++ seen :=
    List.Subset.trans (h j) (List.subset_append_right _ _)
  have hupdate : ∀ (i : Id) (after : List Node), after ⊆ call.added ++ seen →
      Function.update nodes i after j ⊆ call.added ++ seen := by
    intro i after hafter
    rcases eq_or_ne j i with rfl | hj
    · rwa [Function.update_self]
    · rwa [Function.update_of_ne hj]
  cases call with
  | init i => exact hupdate i _ (List.nil_subset _)
  | append i node =>
    exact hupdate i _ (List.append_subset.mpr ⟨fun _ hmem ↦ List.mem_cons_of_mem _ (h i hmem),
      List.subset_append_left _ _⟩)
  | prepend i node =>
    exact hupdate i _ (List.cons_subset.mpr ⟨List.mem_cons_self,
      fun _ hmem ↦ List.mem_cons_of_mem _ (h i hmem)⟩)
  | insert i prev node =>
    refine hupdate i _ (List.Subset.trans (insertBehind_subset node prev _) ?_)
    exact List.cons_subset.mpr ⟨List.mem_cons_self, fun _ hmem ↦ List.mem_cons_of_mem _ (h i hmem)⟩
  | get i => exact hupdate i _ (List.Subset.trans (List.tail_subset _) (h i))
  | remove i prev node => exact hupdate i _ (List.Subset.trans List.erase_subset (h i))
  | findAndRemove i node => exact hupdate i _ (List.Subset.trans List.erase_subset (h i))
  | merge i toAppend =>
    rcases eq_or_ne j toAppend with rfl | hj
    · simp [lists]
    · simp only [lists, Function.update_of_ne hj]
      exact hupdate i _ (List.append_subset.mpr ⟨h i, h toAppend⟩)
  | isEmpty i => exact hkept
  | len i => exact hkept

/-- No list object is set up yet beyond its initialisation; the links are whatever was there. -/
def initialised (next : Node → Option Node) : ListHeap Id Node :=
  ⟨fun _ ↦ none, fun _ ↦ none, next⟩

omit [DecidableEq Id] [DecidableEq Node] in
theorem holds_initialised (next : Node → Option Node) :
    Holds (initialised next : ListHeap Id Node) fun _ ↦ [] :=
  ⟨fun _ ↦ ⟨rfl, List.nodup_nil, rfl⟩, fun _ _ _ ↦ List.disjoint_nil_left _⟩

/-- **Lists over shared nodes.** Any run of meant calls on any number of lists returns, gives
the answers of separate lists and leaves each list object with its own list. -/
theorem run_of_meant (next : Node → Option Node) (calls : List (Call Id Node))
    (hmeant : lists.MeantRun (fun _ ↦ []) calls) {fuel : ℕ} (hfuel : calls.length ≤ fuel) :
    ∃ final, run (step fuel) (initialised next) calls =
        some (final, lists.answers (fun _ ↦ []) calls) ∧
      Holds final (lists.after (fun _ ↦ []) calls) := by
  have hrun := run_of_simulates lists (step fuel)
    (fun heap nodes (calls : List (Call Id Node)) ↦ Holds heap nodes ∧
      ∃ seen : List Node, (∀ i, nodes i ⊆ seen) ∧ seen.length + calls.length ≤ fuel)
    ?_ ⟨holds_initialised next, [], by simp, by simpa using hfuel⟩ hmeant
  · obtain ⟨final, hfinal, hholds, -⟩ := hrun
    exact ⟨final, hfinal, hholds⟩
  · rintro heap nodes call calls ⟨hholds, seen, hseen, hlength⟩ hcall
    rw [List.length_cons] at hlength
    have hroom : ∀ i, (nodes i).length ≤ fuel := by
      intro i
      have hle := ((hholds.represents i).nodup.subperm (hseen i)).length_le
      omega
    obtain ⟨heap', hstep, hnext⟩ := step_of_meant hholds hroom hcall
    refine ⟨heap', hstep, hnext, call.added ++ seen, next_subset hseen call, ?_⟩
    have hadded := call.length_added_le
    rw [List.length_append]
    omega

/-- Two lists, one joined to the other and a node moved back. -/
theorem run_of_meant_move :
    ∃ final, run (step 7) (initialised fun _ ↦ some 0)
        [.append false 1, .append true 2, .insert true (some 2) 3, .merge false true,
          .findAndRemove false 2, .prepend true 2, .len false] =
        some (final, [.void, .void, .void, .void, .bool true, .void, .size 2]) ∧
      Holds final (Function.update (fun _ ↦ [1, 3]) true [2]) := by
  have hrun := run_of_meant (fun _ ↦ some 0)
    [.append false 1, .append true 2, .insert true (some 2) 3, .merge false true,
      .findAndRemove false 2, .prepend true 2, .len false]
    (by simp [Purpose.MeantRun, lists, insertBehind]) le_rfl
  obtain ⟨final, hfinal, hholds⟩ := hrun
  refine ⟨final, ?_, ?_⟩
  · simpa [Purpose.answers, lists, insertBehind] using hfinal
  · convert hholds using 1
    funext i
    cases i <;> simp [Purpose.after, lists, insertBehind]

end Vodka.Zephyr.SharedNodes
