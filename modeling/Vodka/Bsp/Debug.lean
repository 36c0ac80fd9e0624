import Mathlib.Tactic

/-!
# Discovery of the debug components

`bsp_debug_init` reads the two system ROM tables and keeps a pointer to every
component it takes for present. The test `ROM_TB1_ENT_PRESENT` sets the present
bit of the entry instead of masking it, so it always succeeds. Addresses are
32-bit words and wrap; the null pointer is zero. Every register access made is
recorded.
-/

namespace Vodka.Bsp.Debug

def ENXIO : ℤ := 6

def ROM_TB1_BASE : BitVec 32 := 0x5C000000

/-- The entries of `struct bsp_debug_sys_rom_tb1` that are read. -/
structure SysRomTb1 where
  swo : BitVec 32
  swtf : BitVec 32
  tsg : BitVec 32
  sysRomTb2 : BitVec 32

/-- The entries of `struct bsp_debug_sys_rom_tb2` that are read. -/
structure SysRomTb2 where
  cti : BitVec 32
  cstf : BitVec 32
  etf : BitVec 32
  tpiu : BitVec 32

/-- The contents of both tables, the second at whatever address it is found. -/
structure RomTables where
  sysRomTb1 : SysRomTb1
  sysRomTb2 : SysRomTb2

/-- One access to a register, and the set-up of the trace pin by the HAL. -/
inductive Access
  | setBit (register bits : BitVec 32)
  | write (register value : BitVec 32)
  | writeDouble (register : BitVec 32) (value : BitVec 64)
  | halGpioInit

/-- The static pointers. -/
structure Pointers where
  sysRomTb2 : BitVec 32
  swo : BitVec 32
  tsg : BitVec 32
  swtf : BitVec 32
  cti : BitVec 32
  cstf : BitVec 32
  etf : BitVec 32
  tpiu : BitVec 32

/-- The pointers and the accesses made, newest first. -/
structure State extends Pointers where
  accesses : List Access

/-- The statics before any call. -/
def reset : State := ⟨⟨0, 0, 0, 0, 0, 0, 0, 0⟩, []⟩

def record (state : State) (access : Access) : State :=
  { state with accesses := access :: state.accesses }

def romEntPresent (entry : BitVec 32) : BitVec 32 := entry ||| 0x01

def romEntAddroff (entry : BitVec 32) : BitVec 32 := entry &&& 0xFFFFF000

/-- `ROM_TB1_PREPARE_COMPONENT` and `ROM_TB2_PREPARE_COMPONENT`: the pointer they leave. -/
def prepareComponent (base entry pointer : BitVec 32) : BitVec 32 :=
  if romEntPresent entry ≠ 0 then romEntAddroff entry + base else pointer

def bspDebugItmInit (state : State) : State :=
  let state := record state .halGpioInit
  let state := record state (.setBit 0xE000EDFC (1#32 <<< 24))
  let state := record state (.setBit 0xE0000E80 1)
  record state (.setBit 0xE0000E00 1)

/-- `bsp_debug_tsg_start` with the frequency that `HAL_RCC_GetHCLKFreq` returns. -/
def bspDebugTsgStart (hclkFreq : BitVec 32) (value : BitVec 64) (state : State) : State × ℤ :=
  if state.tsg = 0 then (state, - ENXIO)
  else
    let state := record state (.write state.tsg 0)
    let state := record state (.write (state.tsg + 0x20) hclkFreq)
    let state := record state (.writeDouble (state.tsg + 0x08) value)
    (record state (.write state.tsg 1), 0)

def bspDebugTsgStop (state : State) : State × ℤ :=
  if state.tsg = 0 then (state, - ENXIO) else (record state (.write state.tsg 0), 0)

/-- The pointers that `bsp_debug_init` prepares. -/
def preparePointers (tables : RomTables) (pointers : Pointers) : Pointers :=
  let tb1 := tables.sysRomTb1
  let pointers := { pointers with tsg := prepareComponent ROM_TB1_BASE tb1.tsg pointers.tsg }
  let pointers := { pointers with swtf := prepareComponent ROM_TB1_BASE tb1.swtf pointers.swtf }
  let pointers := { pointers with swo := prepareComponent ROM_TB1_BASE tb1.swo pointers.swo }
  let pointers :=
    { pointers with
      sysRomTb2 := prepareComponent ROM_TB1_BASE tb1.sysRomTb2 pointers.sysRomTb2 }
  if pointers.sysRomTb2 ≠ 0 then
    let base := pointers.sysRomTb2
    let tb2 := tables.sysRomTb2
    let pointers := { pointers with cti := prepareComponent base tb2.cti pointers.cti }
    let pointers := { pointers with cstf := prepareComponent base tb2.cstf pointers.cstf }
    let pointers := { pointers with etf := prepareComponent base tb2.etf pointers.etf }
    { pointers with tpiu := prepareComponent base tb2.tpiu pointers.tpiu }
  else pointers

def bspDebugInit (tables : RomTables) (hclkFreq : BitVec 32) (state : State) : State × ℤ :=
  let state := record state (.setBit 0xE000ED24 (1#32 <<< 18))
  let state := record state (.setBit 0xE000ED24 (1#32 <<< 17))
  let state := record state (.setBit 0xE000ED24 (1#32 <<< 16))
  let state := { state with toPointers := preparePointers tables state.toPointers }
  let state := if state.swo ≠ 0 then bspDebugItmInit state else state
  ((bspDebugTsgStart hclkFreq 0 state).1, 0)

/-- The present bit of an entry. -/
def isPresent (entry : BitVec 32) : Prop := entry.getLsbD 0 = true

/-- The pointer tells whether the component is present, and where it is. -/
def PointsTo (base entry pointer : BitVec 32) : Prop :=
  (pointer ≠ 0 ↔ isPresent entry) ∧ (pointer ≠ 0 → pointer = base + romEntAddroff entry)

/-- A component of the second table is only looked for when that table is there. -/
def PointsBehind (base entry pointer : BitVec 32) : Prop :=
  (pointer ≠ 0 ↔ base ≠ 0 ∧ isPresent entry) ∧
    (pointer ≠ 0 → pointer = base + romEntAddroff entry)

/-- The generator's functions fail without an access exactly when it is absent. -/
def TsgGuarded (entry : BitVec 32) (state : State) : Prop :=
  (∀ hclkFreq value, bspDebugTsgStart hclkFreq value state = (state, - ENXIO) ↔ ¬ isPresent entry) ∧
    (bspDebugTsgStop state = (state, - ENXIO) ↔ ¬ isPresent entry)

/-- All pointers and both functions agree with the tables. -/
structure Discovered (tables : RomTables) (state : State) : Prop where
  tsg : PointsTo ROM_TB1_BASE tables.sysRomTb1.tsg state.tsg
  swtf : PointsTo ROM_TB1_BASE tables.sysRomTb1.swtf state.swtf
  swo : PointsTo ROM_TB1_BASE tables.sysRomTb1.swo state.swo
  sysRomTb2 : PointsTo ROM_TB1_BASE tables.sysRomTb1.sysRomTb2 state.sysRomTb2
  cti : PointsBehind state.sysRomTb2 tables.sysRomTb2.cti state.cti
  cstf : PointsBehind state.sysRomTb2 tables.sysRomTb2.cstf state.cstf
  etf : PointsBehind state.sysRomTb2 tables.sysRomTb2.etf state.etf
  tpiu : PointsBehind state.sysRomTb2 tables.sysRomTb2.tpiu state.tpiu
  guarded : TsgGuarded tables.sysRomTb1.tsg state

/-- The test never fails. -/
theorem romEntPresent_ne_zero (entry : BitVec 32) : romEntPresent entry ≠ 0 := by
  intro h
  have hbit := congrArg (fun word : BitVec 32 ↦ word.getLsbD 0) h
  simp [romEntPresent] at hbit

@[simp]
theorem prepareComponent_eq (base entry pointer : BitVec 32) :
    prepareComponent base entry pointer = romEntAddroff entry + base :=
  if_pos (romEntPresent_ne_zero entry)

/-- The entry tells by its offset what it should tell by its present bit: the address of the
component is zero, by wrapping around, exactly for an absent one. -/
def Tells (base entry : BitVec 32) : Prop :=
  isPresent entry ↔ romEntAddroff entry + base ≠ 0

theorem pointsTo_iff (base entry : BitVec 32) :
    PointsTo base entry (romEntAddroff entry + base) ↔ Tells base entry := by
  have hsum : romEntAddroff entry + base = base + romEntAddroff entry := BitVec.add_comm _ _
  exact (and_iff_left fun _ ↦ hsum).trans iff_comm

theorem pointsBehind_iff {base : BitVec 32} (hbase : base ≠ 0) (entry : BitVec 32) :
    PointsBehind base entry (romEntAddroff entry + base) ↔ Tells base entry := by
  rw [← pointsTo_iff, PointsBehind, PointsTo, and_iff_right hbase]

theorem pointsBehind_null (entry : BitVec 32) : PointsBehind 0 entry 0 := by
  simp [PointsBehind]

theorem tsgGuarded_iff (entry : BitVec 32) (state : State) :
    TsgGuarded entry state ↔ (isPresent entry ↔ state.tsg ≠ 0) := by
  have hzero : (0 : ℤ) ≠ - ENXIO := by decide
  have hstart (hclkFreq : BitVec 32) (value : BitVec 64) :
      bspDebugTsgStart hclkFreq value state = (state, - ENXIO) ↔ state.tsg = 0 := by
    by_cases htsg : state.tsg = 0 <;> simp [bspDebugTsgStart, htsg, hzero]
  have hstop : bspDebugTsgStop state = (state, - ENXIO) ↔ state.tsg = 0 := by
    by_cases htsg : state.tsg = 0 <;> simp [bspDebugTsgStop, htsg, hzero]
  unfold TsgGuarded
  simp only [hstart, hstop, forall_const, and_self]
  tauto

/-- The address at which the second table is looked for. -/
def RomTables.secondBase (tables : RomTables) : BitVec 32 :=
  romEntAddroff tables.sysRomTb1.sysRomTb2 + ROM_TB1_BASE

/-- A pointer of the second level, null when there is no second table. -/
def RomTables.secondPointer (tables : RomTables) (entry : BitVec 32) : BitVec 32 :=
  if tables.secondBase ≠ 0 then romEntAddroff entry + tables.secondBase else 0

@[simp]
theorem bspDebugTsgStart_toPointers (hclkFreq : BitVec 32) (value : BitVec 64) (state : State) :
    (bspDebugTsgStart hclkFreq value state).1.toPointers = state.toPointers := by
  unfold bspDebugTsgStart
  split_ifs <;> rfl

@[simp]
theorem bspDebugItmInit_toPointers (state : State) :
    (bspDebugItmInit state).toPointers = state.toPointers := rfl

/-- From the reset state every pointer becomes its offset, whatever the present bits are. -/
theorem preparePointers_reset (tables : RomTables) :
    preparePointers tables reset.toPointers =
      { sysRomTb2 := tables.secondBase
        swo := romEntAddroff tables.sysRomTb1.swo + ROM_TB1_BASE
        tsg := romEntAddroff tables.sysRomTb1.tsg + ROM_TB1_BASE
        swtf := romEntAddroff tables.sysRomTb1.swtf + ROM_TB1_BASE
        cti := tables.secondPointer tables.sysRomTb2.cti
        cstf := tables.secondPointer tables.sysRomTb2.cstf
        etf := tables.secondPointer tables.sysRomTb2.etf
        tpiu := tables.secondPointer tables.sysRomTb2.tpiu } := by
  by_cases hbase : tables.secondBase = 0#32 <;> rw [RomTables.secondBase] at hbase <;>
    simp [preparePointers, RomTables.secondPointer, RomTables.secondBase, hbase, reset]

theorem bspDebugInit_toPointers (tables : RomTables) (hclkFreq : BitVec 32) (state : State) :
    (bspDebugInit tables hclkFreq state).1.toPointers =
      preparePointers tables state.toPointers := by
  unfold bspDebugInit
  dsimp only
  rw [bspDebugTsgStart_toPointers]
  split_ifs <;> rfl

theorem pointsBehind_secondPointer_iff (tables : RomTables) (entry : BitVec 32) :
    PointsBehind tables.secondBase entry (tables.secondPointer entry) ↔
      tables.secondBase = 0 ∨ Tells tables.secondBase entry := by
  by_cases hbase : tables.secondBase = 0
  · rw [RomTables.secondPointer, if_neg (not_not.mpr hbase), hbase]
    exact iff_of_true (pointsBehind_null entry) (.inl rfl)
  · rw [RomTables.secondPointer, if_pos hbase, pointsBehind_iff hbase, or_iff_right hbase]

theorem discovered_state_iff {tables : RomTables} {state : State}
    (hstate : state.toPointers = preparePointers tables reset.toPointers) :
    Discovered tables state ↔
      (Tells ROM_TB1_BASE tables.sysRomTb1.tsg ∧ Tells ROM_TB1_BASE tables.sysRomTb1.swtf ∧
        Tells ROM_TB1_BASE tables.sysRomTb1.swo ∧
        Tells ROM_TB1_BASE tables.sysRomTb1.sysRomTb2) ∧
      (tables.secondBase = 0 ∨
        Tells tables.secondBase tables.sysRomTb2.cti ∧
        Tells tables.secondBase tables.sysRomTb2.cstf ∧
        Tells tables.secondBase tables.sysRomTb2.etf ∧
        Tells tables.secondBase tables.sysRomTb2.tpiu) := by
  rw [preparePointers_reset] at hstate
  have hdiscovered : Discovered tables state ↔
      (PointsTo ROM_TB1_BASE tables.sysRomTb1.tsg state.tsg ∧
        PointsTo ROM_TB1_BASE tables.sysRomTb1.swtf state.swtf ∧
        PointsTo ROM_TB1_BASE tables.sysRomTb1.swo state.swo ∧
        PointsTo ROM_TB1_BASE tables.sysRomTb1.sysRomTb2 state.sysRomTb2) ∧
      (PointsBehind state.sysRomTb2 tables.sysRomTb2.cti state.cti ∧
        PointsBehind state.sysRomTb2 tables.sysRomTb2.cstf state.cstf ∧
        PointsBehind state.sysRomTb2 tables.sysRomTb2.etf state.etf ∧
        PointsBehind state.sysRomTb2 tables.sysRomTb2.tpiu state.tpiu) ∧
      TsgGuarded tables.sysRomTb1.tsg state :=
    ⟨fun h ↦ ⟨⟨h.tsg, h.swtf, h.swo, h.sysRomTb2⟩, ⟨h.cti, h.cstf, h.etf, h.tpiu⟩, h.guarded⟩,
      fun h ↦ ⟨h.1.1, h.1.2.1, h.1.2.2.1, h.1.2.2.2, h.2.1.1, h.2.1.2.1, h.2.1.2.2.1,
        h.2.1.2.2.2, h.2.2⟩⟩
  have hguarded : TsgGuarded tables.sysRomTb1.tsg state ↔
      Tells ROM_TB1_BASE tables.sysRomTb1.tsg := by
    rw [tsgGuarded_iff, hstate, Tells]
  have hsecond : PointsTo ROM_TB1_BASE tables.sysRomTb1.sysRomTb2 tables.secondBase ↔
      Tells ROM_TB1_BASE tables.sysRomTb1.sysRomTb2 :=
    pointsTo_iff ROM_TB1_BASE tables.sysRomTb1.sysRomTb2
  rw [hdiscovered, hguarded, hstate]
  simp only [hsecond, pointsTo_iff, pointsBehind_secondPointer_iff, ← or_and_left]
  exact ⟨fun h ↦ ⟨h.1, h.2.1⟩, fun h ↦ ⟨h.1, h.2, h.1.1⟩⟩

/-- **Debug components.** The pointers and the timestamp functions agree with the tables exactly
when the entries of the first table, and those of the second unless its address is null, tell by
their offset what they should tell by their present bit. -/
theorem discovered_iff (tables : RomTables) (hclkFreq : BitVec 32) :
    Discovered tables (bspDebugInit tables hclkFreq reset).1 ↔
      (Tells ROM_TB1_BASE tables.sysRomTb1.tsg ∧ Tells ROM_TB1_BASE tables.sysRomTb1.swtf ∧
        Tells ROM_TB1_BASE tables.sysRomTb1.swo ∧
        Tells ROM_TB1_BASE tables.sysRomTb1.sysRomTb2) ∧
      (tables.secondBase = 0 ∨
        Tells tables.secondBase tables.sysRomTb2.cti ∧
        Tells tables.secondBase tables.sysRomTb2.cstf ∧
        Tells tables.secondBase tables.sysRomTb2.etf ∧
        Tells tables.secondBase tables.sysRomTb2.tpiu) :=
  discovered_state_iff (bspDebugInit_toPointers tables hclkFreq reset)

/-- Tables without any component: all of them are taken for present. -/
theorem emptyTables_not_discovered :
    ¬ Discovered ⟨⟨0, 0, 0, 0⟩, ⟨0, 0, 0, 0⟩⟩
      (bspDebugInit ⟨⟨0, 0, 0, 0⟩, ⟨0, 0, 0, 0⟩⟩ 0 reset).1 := by
  rw [discovered_state_iff (bspDebugInit_toPointers _ 0 reset)]
  intro htells
  have hpresent := htells.1.1.mpr (by decide)
  exact absurd hpresent (by unfold isPresent; decide)

end Vodka.Bsp.Debug
