import Mathlib.Tactic
import Vodka.Foundation.Hexadecimal
import Vodka.Mkimage.Header

/-!
# The command line of the image tool

`getopt` gives the options of the words one by one and leaves the other words
as operands, wherever they stand. `process_args` folds the options into the
parameters and ends the program at the first one that is not valid. An address
is a hexadecimal number that may be signed, saturates at 64 bits and is cut to
32 bits. Addresses as they are printed are read back.
-/

namespace Vodka.Mkimage.CommandLine

open Foundation.Hexadecimal Foundation.Scanf Config Header

/-- An argument, without its terminator. -/
abbrev Word := List UInt8

/-- What `getopt` returns: an unknown letter or a missing argument is a question mark. -/
inductive Opt
  | flag (letter : UInt8)
  | arg (letter : UInt8) (optarg : Word)
  | invalid
  deriving DecidableEq

/-- The string `"a:d:e:ln:"`: whether a letter takes an argument. -/
def optstring (letter : UInt8) : Option Bool :=
  if letter ∈ ascii "aden" then some true else if letter ∈ ascii "l" then some false else none

/-- The options of one word, and the letter that takes its argument from the next one. -/
def cluster : Word → List Opt × Option UInt8
  | [] => ([], none)
  | letter :: letters =>
    match optstring letter with
    | none => (.invalid :: (cluster letters).1, (cluster letters).2)
    | some false => (.flag letter :: (cluster letters).1, (cluster letters).2)
    | some true => if letters = [] then ([], some letter) else ([.arg letter letters], none)

/-- The loop over `getopt`, with the letter that waits for its argument: the options and the
operands. -/
def getopt : Option UInt8 → List Word → List Opt × List Word
  | none, [] => ([], [])
  | some _, [] => ([.invalid], [])
  | some letter, word :: words =>
    (.arg letter word :: (getopt none words).1, (getopt none words).2)
  | none, word :: words =>
    if word = ascii "--" then ([], words)
    else if word.head? = some 0x2d ∧ word ≠ ascii "-" then
      let found := cluster word.tail
      (found.1 ++ (getopt found.2 words).1, (getopt found.2 words).2)
    else ((getopt none words).1, word :: (getopt none words).2)

/-- The fields of `struct image_tool_params` that the tool sets and looks at. -/
structure Params extends ToolParams where
  dflag : Bool
  eflag : Bool
  lflag : Bool
  imagename : Word
  datafile : Option Word
  imagefile : Option Word

/-- The static `params`. -/
def initialParams : Params where
  addr := 0
  ep := 0
  dflag := false
  eflag := false
  lflag := false
  imagename := []
  datafile := none
  imagefile := none

/-- An address in hexadecimal, which has to be the whole argument. -/
def addressOf (optarg : Word) : Except Failure (BitVec 32) :=
  if (strtoull optarg).2 = [] then .ok (BitVec.ofNat 32 (strtoull optarg).1)
  else .error (.exit EXIT_FAILURE)

/-- The switch of `process_args`. -/
def processOpt (params : Params) : Opt → Except Failure Params
  | .arg letter optarg =>
    if letter = 0x61 then do
      let addr ← addressOf optarg
      pure { params with addr := addr }
    else if letter = 0x64 then .ok { params with datafile := some optarg, dflag := true }
    else if letter = 0x65 then do
      let ep ← addressOf optarg
      pure { params with ep := ep, eflag := true }
    else if letter = 0x6e then .ok { params with imagename := optarg }
    else .error (.exit EXIT_FAILURE)
  | .flag letter =>
    if letter = 0x6c then .ok { params with lflag := true } else .error (.exit EXIT_FAILURE)
  | .invalid => .error (.exit EXIT_FAILURE)

/-- `process_args`, on the words behind the name of the command. -/
def processArgs (args : List Word) : Except Failure Params := do
  let params ← (getopt none args).1.foldlM processOpt initialParams
  match (getopt none args).2 with
  | [] => .error (.exit EXIT_FAILURE)
  | imagefile :: _ => .ok { params with imagefile := some imagefile }

/-- `s32cc_check_params`, where `fflag` is never set. -/
def checkParams (params : Params) : ℤ :=
  if !params.lflag && params.imagename.isEmpty then -EINVAL
  else if params.lflag then
    if (params.dflag && (false || params.lflag)) || (false && (params.dflag || params.lflag)) ||
      (params.lflag && (params.dflag || false)) then 1 else 0
  else 0

/-- The start of `main`: the parameters, with the entry point at the load address unless it is
given. -/
def readParams (args : List Word) : Except Failure Params := do
  let params ← processArgs args
  if checkParams params ≠ 0 then .error (.exit EXIT_FAILURE)
  else if params.eflag then .ok params
  else .ok { params with ep := params.addr }

/-- A word that is an operand wherever it stands in front of `--`. -/
def IsOperand (word : Word) : Prop := word.head? ≠ some 0x2d ∨ word = ascii "-"

theorem getopt_operand {word : Word} (h : IsOperand word) (words : List Word) :
    getopt none (word :: words) = ((getopt none words).1, word :: (getopt none words).2) := by
  have hne : word ≠ ascii "--" := by
    rintro rfl
    rcases h with h | h
    · exact h rfl
    · exact absurd h (by decide)
  rw [getopt, if_neg hne, if_neg]
  rintro ⟨hhead, hdash⟩
  exact h.elim (fun hnot ↦ hnot hhead) hdash

/-- An option whose argument is the next word. -/
theorem getopt_arg {letter : UInt8} (h : letter ∈ ascii "aden") (optarg : Word)
    (words : List Word) :
    getopt none ([0x2d, letter] :: optarg :: words) =
      (.arg letter optarg :: (getopt none words).1, (getopt none words).2) := by
  have hcluster : cluster [letter] = ([], some letter) := by
    rw [cluster, optstring, if_pos h]
    rfl
  have hne : [0x2d, letter] ≠ ascii "--" := by
    rintro heq
    obtain rfl : letter = 0x2d := (List.cons.inj (List.cons.inj heq).2).1
    exact absurd h (by decide)
  rw [getopt, if_neg hne, if_pos ⟨rfl, by simp [ascii]⟩]
  dsimp only [List.tail_cons]
  rw [hcluster]
  rfl

/-- An address as it is printed. -/
def addressText (address : BitVec 32) : Word := ascii "0x" ++ hexDigits address.toNat

theorem addressOf_addressText (address : BitVec 32) :
    addressOf (addressText address) = .ok address := by
  have hlt : address.toNat < 2 ^ 64 := address.isLt.trans (by decide)
  rw [addressOf, addressText, strtoull_hexDigits hlt, if_pos rfl, BitVec.ofNat_toNat,
    BitVec.setWidth_eq]

/-- The words that make an image. -/
def createArgs (toolParams : ToolParams) (imagename datafile imagefile : Word) : List Word :=
  [ascii "-a", addressText toolParams.addr, ascii "-e", addressText toolParams.ep, ascii "-n",
    imagename, ascii "-d", datafile, imagefile]

/-- The words that list one. -/
def listArgs (imagefile : Word) : List Word := [ascii "-l", imagefile]

theorem getopt_createArgs (toolParams : ToolParams) {imagename datafile imagefile : Word}
    (himage : IsOperand imagefile) :
    getopt none (createArgs toolParams imagename datafile imagefile) =
      ([.arg 0x61 (addressText toolParams.addr), .arg 0x65 (addressText toolParams.ep),
        .arg 0x6e imagename, .arg 0x64 datafile], [imagefile]) := by
  rw [createArgs, show ascii "-a" = [0x2d, 0x61] from rfl, getopt_arg (by decide),
    show ascii "-e" = [0x2d, 0x65] from rfl, getopt_arg (by decide),
    show ascii "-n" = [0x2d, 0x6e] from rfl, getopt_arg (by decide),
    show ascii "-d" = [0x2d, 0x64] from rfl, getopt_arg (by decide), getopt_operand himage]
  rfl

/-- The parameters are what the words spell. -/
theorem readParams_createArgs (toolParams : ToolParams) {imagename datafile imagefile : Word}
    (hname : imagename ≠ []) (himage : IsOperand imagefile) :
    readParams (createArgs toolParams imagename datafile imagefile) =
      .ok { toToolParams := toolParams, dflag := true, eflag := true, lflag := false,
            imagename := imagename, datafile := some datafile, imagefile := some imagefile } := by
  have hfold : [Opt.arg 0x61 (addressText toolParams.addr), .arg 0x65 (addressText toolParams.ep),
      .arg 0x6e imagename, .arg 0x64 datafile].foldlM processOpt initialParams =
      .ok { toToolParams := toolParams, dflag := true, eflag := true, lflag := false,
            imagename := imagename, datafile := some datafile, imagefile := none } := by
    simp only [List.foldlM_cons, List.foldlM_nil, processOpt, addressOf_addressText]
    rfl
  have hcheck : imagename.isEmpty = false := by
    rw [List.isEmpty_eq_false_iff]
    exact hname
  unfold readParams processArgs
  rw [getopt_createArgs toolParams himage, hfold]
  simp only [bind, Except.bind, checkParams, hcheck]
  rfl

theorem readParams_listArgs {imagefile : Word} (himage : IsOperand imagefile) :
    readParams (listArgs imagefile) =
      .ok { initialParams with lflag := true, imagefile := some imagefile } := by
  have hgetopt : getopt none (listArgs imagefile) = ([.flag 0x6c], [imagefile]) := by
    have hflag : getopt none (listArgs imagefile) =
        (.flag 0x6c :: (getopt none [imagefile]).1, (getopt none [imagefile]).2) := rfl
    rw [hflag, getopt_operand himage]
    rfl
  unfold readParams processArgs
  rw [hgetopt]
  rfl

/-- An image is made only with the name of a configuration. -/
theorem imagename_ne_nil {args : List Word} {params : Params} (h : readParams args = .ok params)
    (hmaking : params.lflag = false) : params.imagename ≠ [] := by
  obtain ⟨processed, -, h⟩ := exists_of_bind_ok h
  have hkept : params.lflag = processed.lflag ∧ params.imagename = processed.imagename ∧
      checkParams processed = 0 := by
    split_ifs at h with hcheck heflag <;> obtain rfl := Except.ok.inj h
    · exact ⟨rfl, rfl, not_not.mp hcheck⟩
    · exact ⟨rfl, rfl, not_not.mp hcheck⟩
  obtain ⟨hlflag, hname, hcheck⟩ := hkept
  rw [hname]
  intro hempty
  simp [checkParams, ← hlflag, hmaking, hempty, EINVAL] at hcheck

end Vodka.Mkimage.CommandLine
