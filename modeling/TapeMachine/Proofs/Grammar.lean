import Mathlib.Data.List.Basic
import TapeMachine.CommandLine.Options

/-!
# The grammar of the command line

A command line is a list of pieces: an option with its value, an option by itself, or an argument that stands alone.
There is one way to read the arguments as pieces (`existsUnique_reads`).  They are accepted if and only if the pieces
obey the grammar; otherwise the leftmost piece that offends against it is reported (`parse_decides_grammar`).

* `offences` are the errors of the pieces that offend, in order.
* `Draft.add` takes one piece, and reading the arguments is adding the pieces one after the other (`read_eq_foldlM`).
* `Draft.Reflects` says what a draft holds of the pieces so far.  One piece keeps it true or offends (`Reflects.add`).
-/

namespace TapeMachine.CommandLine

/-- What is read at a time. -/
inductive Piece where
  | input (value? : Option String)
  | policy (name? : Option String)
  | step
  /-- An argument that stands alone. -/
  | single (argument : String)

namespace Piece

def single? : Piece → Option String
  | single argument => some argument
  | _ => none

/-- The value of an `--input`. -/
def input? : Piece → Option String
  | input value? => value?
  | _ => none

/-- The value of a `--policy`. -/
def policy? : Piece → Option String
  | policy name? => name?
  | _ => none

/-- The arguments are the pieces, from left to right.  An option takes the next argument whatever it is. -/
inductive Reads : List String → List Piece → Prop where
  | nil : Reads [] []
  | input (value : String) {rest : List String} {pieces : List Piece} (h : Reads rest pieces) :
    Reads ("--input" :: value :: rest) (input (some value) :: pieces)
  | input_missing : Reads ["--input"] [input none]
  | policy (name : String) {rest : List String} {pieces : List Piece} (h : Reads rest pieces) :
    Reads ("--policy" :: name :: rest) (policy (some name) :: pieces)
  | policy_missing : Reads ["--policy"] [policy none]
  | step {rest : List String} {pieces : List Piece} (h : Reads rest pieces) : Reads ("--step" :: rest) (step :: pieces)
  | single {argument : String} (hargument : argument ∉ ["--input", "--policy", "--step"]) {rest : List String}
    {pieces : List Piece} (h : Reads rest pieces) : Reads (argument :: rest) (single argument :: pieces)

/-- Nothing is wrong with the piece itself. -/
def IsSound : Piece → Prop
  | input value? => value?.isSome
  | policy name? => ∃ name ∈ ["zero", "whitespace", "unknown"], name? = some name
  | step => True
  | single argument => ¬['-', '-'] <+: argument.toList

/-- What is wrong with a piece behind others. -/
def offence? (before : List Piece) : Piece → Option UsageError
  | input none => some (.missingValue "--input")
  | policy none => some (.missingValue "--policy")
  | policy (some name) => if name ∈ ["zero", "whitespace", "unknown"] then none else some (.unknownPolicy name)
  | single argument =>
    if ['-', '-'] <+: argument.toList then some (.unknownOption argument)
    else if before.filterMap single? = [] then none
    else some (.unexpectedArgument argument)
  | input (some _) | step => none

end Piece

open Piece (single? input? policy? offence? Reads)

/-- The errors of the pieces that offend, from left to right, if there are others before them. -/
def offences (before : List Piece) : List Piece → List UsageError
  | [] => []
  | piece :: rest => (piece.offence? before).toList ++ offences (before ++ [piece]) rest

/-- What the command line accepts. -/
structure Grammatical (pieces : List Piece) : Prop where
  sound : ∀ piece ∈ pieces, piece.IsSound
  file : (pieces.filterMap single?).length = 1

/-- The options say what the pieces say. -/
structure Options.Reflects (o : Options) (pieces : List Piece) : Prop where
  file : pieces.filterMap single? = [o.file]
  input : o.input = (pieces.filterMap input?).getLast?
  policy : o.policy.name = (pieces.filterMap policy?).getLast?.getD "whitespace"
  step : o.step ↔ .step ∈ pieces

/-! ### Reading the arguments -/

/-- The pieces of a command line. -/
def Piece.split : List String → List Piece
  | [] => []
  | "--step" :: rest => step :: split rest
  | "--input" :: value :: rest => input (some value) :: split rest
  | "--policy" :: name :: rest => policy (some name) :: split rest
  | ["--input"] => [input none]
  | ["--policy"] => [policy none]
  | argument :: rest => single argument :: split rest

theorem Piece.reads_split (arguments : List String) : Reads arguments (split arguments) := by
  fun_induction split arguments with
  | case1 => exact .nil
  | case2 rest ih => exact .step ih
  | case3 value rest ih => exact .input value ih
  | case4 name rest ih => exact .policy name ih
  | case5 => exact .input_missing
  | case6 => exact .policy_missing
  | case7 argument rest hstep hinput hpolicy hinput' hpolicy' ih =>
    -- an option with a value is not met here, whether there is an argument after it or not
    refine .single ?_ ih
    simp only [List.mem_cons, List.not_mem_nil, or_false, not_or]
    cases rest with
    | nil => exact ⟨fun h => hinput' h rfl, fun h => hpolicy' h rfl, hstep⟩
    | cons value rest => exact ⟨fun h => hinput value rest h rfl, fun h => hpolicy value rest h rfl, hstep⟩

theorem Piece.Reads.eq_split {arguments : List String} {pieces : List Piece} (h : Reads arguments pieces) :
    pieces = split arguments := by
  induction h with
  | nil => rfl
  | input value _ ih => rw [split, ih]
  | input_missing => rfl
  | policy name _ ih => rw [split, ih]
  | policy_missing => rfl
  | step _ ih => rw [split, ih]
  | single hargument _ ih =>
    simp only [List.mem_cons, List.not_mem_nil, or_false, not_or] at hargument
    obtain ⟨hinput, hpolicy, hstep⟩ := hargument
    rw [split, ih]
    · exact hstep
    · exact fun _ _ h _ => hinput h
    · exact fun _ _ h _ => hpolicy h
    · exact fun h _ => hinput h
    · exact fun h _ => hpolicy h

/-- There is one way to read the arguments. -/
theorem existsUnique_reads (arguments : List String) : ∃! pieces, Reads arguments pieces :=
  ⟨Piece.split arguments, Piece.reads_split arguments, fun _ h => h.eq_split⟩

/-! ### Adding pieces to a draft -/

/-- Add a piece to a draft. -/
def Draft.add (d : Draft) : Piece → Except UsageError Draft
  | .input (some value) => .ok { d with input := some value }
  | .input none => .error (.missingValue "--input")
  | .policy (some name) =>
    match Policy.ofName? name with
    | some policy => .ok { d with policy }
    | none => .error (.unknownPolicy name)
  | .policy none => .error (.missingValue "--policy")
  | .step => .ok { d with step := true }
  | .single argument => d.take argument

theorem Draft.read_eq_foldlM {arguments : List String} {pieces : List Piece} (h : Reads arguments pieces) (d : Draft) :
    d.read arguments = pieces.foldlM Draft.add d >>= Draft.finish := by
  induction h generalizing d with
  | nil => rfl
  | input value _ ih => exact ih _
  | input_missing => rfl
  | policy name _ ih =>
    rw [List.foldlM_cons, Draft.add, Draft.read]
    cases Policy.ofName? name with
    | none => rfl
    | some policy => exact ih _
  | policy_missing => rfl
  | step _ ih => exact ih _
  | @single argument hargument rest pieces _ ih =>
    simp only [List.mem_cons, List.not_mem_nil, or_false, not_or] at hargument
    obtain ⟨hinput, hpolicy, hstep⟩ := hargument
    rw [List.foldlM_cons, Draft.add, Draft.read]
    · cases d.take argument with
      | ok d => exact ih d
      | error e => rfl
    · exact hstep
    · exact fun _ _ h _ => hinput h
    · exact fun _ _ h _ => hpolicy h
    · exact fun h _ => hinput h
    · exact fun h _ => hpolicy h

/-- What a draft holds of the pieces so far. -/
structure Draft.Reflects (d : Draft) (pieces : List Piece) : Prop where
  file : pieces.filterMap single? = d.file.toList
  input : d.input = (pieces.filterMap input?).getLast?
  policy : d.policy.name = (pieces.filterMap policy?).getLast?.getD "whitespace"
  step : d.step ↔ .step ∈ pieces

theorem Draft.reflects_nil : Draft.Reflects {} [] := ⟨rfl, rfl, rfl, by simp⟩

theorem isOption_iff {argument : String} : isOption argument ↔ ['-', '-'] <+: argument.toList :=
  List.isPrefixOf_iff_prefix

theorem ofName?_eq_none_iff {name : String} :
    Policy.ofName? name = none ↔ name ∉ ["zero", "whitespace", "unknown"] := by
  unfold Policy.ofName?
  split_ifs <;> simp_all

/-- A piece that offends is refused, and any other is added. -/
theorem Draft.Reflects.add {d : Draft} {before : List Piece} (h : d.Reflects before) (piece : Piece) :
    match piece.offence? before with
    | some e => d.add piece = .error e
    | none => ∃ d', d.add piece = .ok d' ∧ d'.Reflects (before ++ [piece]) := by
  cases piece with
  | input value? =>
    cases value? with
    | none => rfl
    | some value =>
      refine ⟨{ d with input := some value }, rfl, ?_, ?_, ?_, ?_⟩
      · simpa [List.filterMap_cons, single?] using h.file
      · simp [input?]
      · simpa [policy?] using h.policy
      · simpa using h.step
  | policy name? =>
    cases name? with
    | none => rfl
    | some name =>
      simp only [offence?, Draft.add]
      cases hname : Policy.ofName? name with
      | none =>
        rw [if_neg (ofName?_eq_none_iff.1 hname)]
      | some policy =>
        have hmem : name ∈ ["zero", "whitespace", "unknown"] := by
          by_contra hmem
          rw [ofName?_eq_none_iff.2 hmem] at hname
          cases hname
        rw [if_pos hmem]
        refine ⟨{ d with policy }, rfl, ?_, ?_, ?_, ?_⟩
        · simpa [List.filterMap_cons, single?] using h.file
        · simpa [input?] using h.input
        · simpa [policy?] using (Policy.ofName?_eq_some_iff.1 hname).symm
        · simpa using h.step
  | step =>
    refine ⟨{ d with step := true }, rfl, ?_, ?_, ?_, ?_⟩
    · simpa [List.filterMap_cons, single?] using h.file
    · simpa [input?] using h.input
    · simpa [policy?] using h.policy
    · simp
  | single argument =>
    simp only [offence?, Draft.add, Draft.take, isOption_iff, h.file]
    by_cases hoption : ['-', '-'] <+: argument.toList
    · simp only [if_pos hoption]
    · simp only [if_neg hoption]
      cases hfile : d.file with
      | some file => simp
      | none =>
        refine ⟨{ d with file := some argument }, rfl, ?_, ?_, ?_, ?_⟩
        · simp [single?, h.file, hfile]
        · simpa [input?] using h.input
        · simpa [policy?] using h.policy
        · simpa using h.step

/-- The pieces are added up to the first that offends. -/
theorem Draft.Reflects.foldlM {d : Draft} {before : List Piece} (h : d.Reflects before) (pieces : List Piece) :
    match (offences before pieces).head? with
    | some e => pieces.foldlM Draft.add d = .error e
    | none => ∃ d', pieces.foldlM Draft.add d = .ok d' ∧ d'.Reflects (before ++ pieces) := by
  induction pieces generalizing d before with
  | nil => exact ⟨d, rfl, by rwa [List.append_nil]⟩
  | cons piece rest ih =>
    have hadd := h.add piece
    rw [offences, List.foldlM_cons]
    cases hoffence : piece.offence? before with
    | some e =>
      simp only [hoffence] at hadd
      rw [hadd]
      rfl
    | none =>
      simp only [hoffence] at hadd
      obtain ⟨d', hadd, hd'⟩ := hadd
      have hrest := ih hd'
      rw [List.append_assoc, List.singleton_append] at hrest
      rw [hadd]
      exact hrest

/-! ### The grammar -/

private theorem filterMap_single?_concat {piece : Piece} (h : piece.single? = none) (before : List Piece) :
    (before ++ [piece]).filterMap single? = before.filterMap single? := by
  rw [List.filterMap_append, List.filterMap_cons_none h, List.filterMap_nil, List.append_nil]

theorem Piece.offence?_eq_none_iff {before : List Piece} {piece : Piece}
    (hbefore : (before.filterMap single?).length ≤ 1) :
    piece.offence? before = none ↔ piece.IsSound ∧ ((before ++ [piece]).filterMap single?).length ≤ 1 := by
  cases piece with
  | input value? =>
    rw [filterMap_single?_concat rfl, and_iff_left hbefore]
    cases value? <;> simp [offence?, IsSound]
  | policy name? =>
    rw [filterMap_single?_concat rfl, and_iff_left hbefore]
    cases name? with
    | none => simp [offence?, IsSound]
    | some name =>
      simp only [offence?, IsSound, Option.some.injEq, exists_eq_right', ite_eq_left_iff, reduceCtorEq, imp_false,
        not_not]
  | step =>
    rw [filterMap_single?_concat rfl, and_iff_left hbefore]
    simp [offence?, IsSound]
  | single argument =>
    have hone : ((before ++ [single argument]).filterMap single?).length ≤ 1 ↔ before.filterMap single? = [] := by
      simp [single?]
    simp only [hone, offence?, IsSound]
    split_ifs <;> simp_all

/-- No piece offends if and only if each of them is sound and no two stand alone. -/
theorem offences_eq_nil_iff {before pieces : List Piece} (hbefore : (before.filterMap single?).length ≤ 1) :
    offences before pieces = [] ↔
      (∀ piece ∈ pieces, piece.IsSound) ∧ ((before ++ pieces).filterMap single?).length ≤ 1 := by
  induction pieces generalizing before with
  | nil => simpa [offences] using hbefore
  | cons piece rest ih =>
    have hsplit : before ++ piece :: rest = before ++ [piece] ++ rest := by simp
    rw [offences, List.append_eq_nil_iff, Option.toList_eq_nil_iff, Piece.offence?_eq_none_iff hbefore,
      List.forall_mem_cons, hsplit]
    constructor
    · rintro ⟨⟨hpiece, hle⟩, hrest⟩
      obtain ⟨hsound, hall⟩ := (ih hle).1 hrest
      exact ⟨⟨hpiece, hsound⟩, hall⟩
    · rintro ⟨⟨hpiece, hsound⟩, hall⟩
      have hle : ((before ++ [piece]).filterMap single?).length ≤ 1 := by
        rw [List.filterMap_append, List.length_append] at hall
        omega
      exact ⟨⟨hpiece, hle⟩, (ih hle).2 ⟨hsound, hall⟩⟩

private theorem head?_append {s : String} {c : Char} (h : s.toList.head? = some c) (t : String) :
    (s ++ t).toList.head? = some c := by
  rw [String.toList_append, List.head?_append, h]
  rfl

/-- The error of a piece is not said in the words for a missing file. -/
theorem Piece.message_of_offence {before : List Piece} {piece : Piece} {e : UsageError}
    (h : piece.offence? before = some e) : e.message ≠ "no input file provided" := by
  have hhead : e.message.toList.head? = some '-' ∨ e.message.toList.head? = some 'u' := by
    unfold offence? at h
    split at h
    · cases h
      exact .inl rfl
    · cases h
      exact .inl rfl
    · split at h
      · cases h
      · cases h
        exact .inr (head?_append (head?_append rfl _) _)
    · split at h
      · cases h
        exact .inr (head?_append (head?_append rfl _) _)
      split at h
      · cases h
      · cases h
        exact .inr (head?_append (head?_append rfl _) _)
    · cases h
    · cases h
  intro hsame
  have hn : "no input file provided".toList.head? = some 'n' := rfl
  rw [hsame, hn] at hhead
  exact absurd hhead (by decide)

theorem message_of_mem_offences {before pieces : List Piece} {e : UsageError} (h : e ∈ offences before pieces) :
    e.message ≠ "no input file provided" := by
  induction pieces generalizing before with
  | nil => cases h
  | cons piece rest ih =>
    rcases List.mem_append.1 h with h | h
    · exact Piece.message_of_offence (Option.mem_toList.1 h)
    · exact ih h

/-- The three ways in which reading the arguments can end. -/
theorem parse_cases {arguments : List String} {pieces : List Piece} (h : Reads arguments pieces) :
    (∃ e later, offences [] pieces = e :: later ∧ parse arguments = .error e) ∨
      (offences [] pieces = [] ∧ pieces.filterMap single? = [] ∧ parse arguments = .error .noFile) ∨
      ∃ o : Options, offences [] pieces = [] ∧ o.Reflects pieces ∧ parse arguments = .ok o := by
  have hfold := Draft.reflects_nil.foldlM pieces
  rw [parse, Draft.read_eq_foldlM h]
  cases hoffences : offences [] pieces with
  | cons e later =>
    rw [hoffences, List.head?_cons] at hfold
    rw [show pieces.foldlM Draft.add {} = .error e from hfold]
    exact .inl ⟨e, later, rfl, rfl⟩
  | nil =>
    rw [hoffences, List.head?_nil] at hfold
    obtain ⟨d, hadded, hd⟩ := hfold
    rw [List.nil_append] at hd
    rw [hadded]
    refine .inr ?_
    cases hfile : d.file with
    | none => exact .inl ⟨rfl, by rw [hd.file, hfile]; rfl, by simp [bind, Except.bind, Draft.finish, hfile]⟩
    | some file =>
      refine .inr ⟨⟨file, d.input, d.policy, d.step⟩, rfl, ⟨?_, hd.input, hd.policy, hd.step⟩, ?_⟩
      · rw [hd.file, hfile]
        rfl
      · simp [bind, Except.bind, Draft.finish, hfile]

theorem grammatical_iff {pieces : List Piece} :
    Grammatical pieces ↔ offences [] pieces = [] ∧ (pieces.filterMap single?).length = 1 := by
  have hnone : (([] : List Piece).filterMap single?).length ≤ 1 := Nat.zero_le 1
  rw [offences_eq_nil_iff hnone, List.nil_append]
  constructor
  · rintro ⟨hsound, hfile⟩
    exact ⟨⟨hsound, Nat.le_of_eq hfile⟩, hfile⟩
  · rintro ⟨⟨hsound, -⟩, hfile⟩
    exact ⟨hsound, hfile⟩

/-- The command line accepts what its grammar says, and makes of it what the pieces say.  Otherwise it reports the
leftmost piece that offends, and the missing file only if there is no such piece. -/
theorem parse_decides_grammar (arguments : List String) :
    ∃ pieces, Reads arguments pieces ∧ (∀ pieces', Reads arguments pieces' → pieces' = pieces) ∧
      ((∃ options, parse arguments = .ok options) ↔ Grammatical pieces) ∧
      (∀ options, parse arguments = .ok options → options.Reflects pieces) ∧
      (∀ e, parse arguments = .error e ↔ (offences [] pieces).head? = some e ∨
        offences [] pieces = [] ∧ pieces.filterMap single? = [] ∧ e = .noFile) ∧
      ∀ e, parse arguments = .error e → e.message = "no input file provided" → offences [] pieces = [] := by
  obtain ⟨pieces, hreads, hunique⟩ := existsUnique_reads arguments
  refine ⟨pieces, hreads, hunique, ?_⟩
  rw [grammatical_iff]
  rcases parse_cases hreads with ⟨e, later, hoffences, hparse⟩ | ⟨hoffences, hnone, hparse⟩ | ⟨o, hoffences, ho, hparse⟩
  · rw [hparse, hoffences]
    refine ⟨by simp, by simp, by simp, ?_⟩
    rintro _ ⟨⟩ hmessage
    exact absurd hmessage (message_of_mem_offences (hoffences ▸ List.mem_cons_self))
  · rw [hparse, hoffences, hnone]
    exact ⟨by simp, by simp, by simp [eq_comm], fun _ _ _ => rfl⟩
  · rw [hparse, hoffences, ho.file]
    refine ⟨by simp, ?_, by simp, fun _ _ _ => rfl⟩
    rintro _ ⟨⟩
    exact ho

example : parse ["--input", "--step", "prog", "--policy", "odd", "--bad"] = .error (.unknownPolicy "odd") := rfl

end TapeMachine.CommandLine
