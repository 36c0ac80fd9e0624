import Mathlib.Tactic

/-!
# Singly linked chains

`Segment next start nodes stop` says that following `next` from `start` visits
exactly `nodes` and arrives at `stop`. A chain ends at the null link. The link
function decides the visited nodes, so an intrusive list is determined by its
head, and a segment only depends on the links of its own nodes.
-/

namespace Vodka.Foundation.Chain

variable {Node : Type*}

/-- Following `next` from `start` visits `nodes` in order and arrives at `stop`. -/
def Segment (next : Node → Option Node) (start : Option Node) :
    List Node → Option Node → Prop
  | [], stop => start = stop
  | node :: nodes, stop => start = some node ∧ Segment next (next node) nodes stop

variable {next : Node → Option Node} {start stop : Option Node} {node : Node} {nodes : List Node}

@[simp]
theorem segment_nil : Segment next start [] stop ↔ start = stop := Iff.rfl

@[simp]
theorem segment_cons :
    Segment next start (node :: nodes) stop ↔
      start = some node ∧ Segment next (next node) nodes stop := Iff.rfl

theorem segment_append {before after : List Node} :
    Segment next start (before ++ after) stop ↔
      ∃ middle, Segment next start before middle ∧ Segment next middle after stop := by
  induction before generalizing start with
  | nil => simp
  | cons node before ih => simp [ih, and_assoc]

/-- Only the links of the visited nodes matter. -/
theorem Segment.congr {other : Node → Option Node} (h : Segment next start nodes stop)
    (hlinks : ∀ node ∈ nodes, other node = next node) : Segment other start nodes stop := by
  induction nodes generalizing start with
  | nil => exact h
  | cons node nodes ih =>
    rw [List.forall_mem_cons] at hlinks
    rw [segment_cons, hlinks.1]
    exact ⟨h.1, ih h.2 hlinks.2⟩

theorem Segment.update [DecidableEq Node] (h : Segment next start nodes stop)
    (hnode : node ∉ nodes) (link : Option Node) :
    Segment (Function.update next node link) start nodes stop := by
  refine h.congr fun other hother ↦ ?_
  exact Function.update_of_ne (ne_of_mem_of_not_mem hother hnode) link next

/-- The links decide the chain: one that passes a segment starts with its nodes. -/
theorem Segment.prefix_of_chain {before chain : List Node} {middle : Option Node}
    (h : Segment next start before middle) (hchain : Segment next start chain none) :
    ∃ rest, chain = before ++ rest ∧ Segment next middle rest none := by
  induction before generalizing start chain with
  | nil => exact ⟨chain, rfl, h ▸ hchain⟩
  | cons node before ih =>
    obtain ⟨rfl, hbefore⟩ := h
    cases chain with
    | nil => simp at hchain
    | cons first chain =>
      rw [segment_cons, Option.some.injEq] at hchain
      obtain ⟨rfl, hrest⟩ := hchain
      obtain ⟨rest, rfl, hend⟩ := ih hbefore hrest
      exact ⟨rest, rfl, hend⟩

theorem Segment.chain_unique {chain other : List Node} (h : Segment next start chain none)
    (hother : Segment next start other none) : chain = other := by
  induction chain generalizing start other with
  | nil =>
    cases other with
    | nil => rfl
    | cons first other => simp [show start = none from h] at hother
  | cons node chain ih =>
    obtain ⟨rfl, hchain⟩ := h
    cases other with
    | nil => simp at hother
    | cons first other =>
      rw [segment_cons, Option.some.injEq] at hother
      obtain ⟨rfl, hrest⟩ := hother
      rw [ih hchain hrest]

/-- A chain meets no node twice: from there on it would have to go on as before. -/
theorem Segment.nodup_of_chain (h : Segment next start nodes none) : nodes.Nodup := by
  induction nodes generalizing start with
  | nil => exact List.nodup_nil
  | cons node nodes ih =>
    refine List.nodup_cons.mpr ⟨fun hmem ↦ ?_, ih h.2⟩
    obtain ⟨before, after, rfl⟩ := List.append_of_mem hmem
    obtain ⟨middle, -, rfl, hafter⟩ := segment_append.mp h.2
    have hsame : before ++ node :: after = after := h.2.chain_unique hafter
    have hlength := congrArg List.length hsame
    simp only [List.length_append, List.length_cons] at hlength
    omega

theorem Segment.start_of_some (h : Segment next start nodes (some node)) :
    ∃ first, start = some first := by
  cases nodes with
  | nil => exact ⟨node, h⟩
  | cons first nodes => exact ⟨first, h.1⟩

theorem Segment.eq_nil_of_none (h : Segment next none nodes stop) : nodes = [] := by
  cases nodes with
  | nil => rfl
  | cons first nodes => exact absurd h.1 (by simp)

theorem Segment.start_mem (h : Segment next (some node) nodes none) : node ∈ nodes := by
  cases nodes with
  | nil => simp at h
  | cons first nodes =>
    obtain rfl := Option.some.inj h.1
    exact List.mem_cons_self

/-- A node that links to itself starts no finite chain. -/
theorem not_chain_of_self_link (hself : next node = some node) :
    ¬ Segment next (some node) nodes none := by
  induction nodes with
  | nil => simp
  | cons first nodes ih =>
    rw [segment_cons, Option.some.injEq]
    rintro ⟨rfl, hrest⟩
    exact ih (hself ▸ hrest)

end Vodka.Foundation.Chain
