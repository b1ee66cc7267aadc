import TapeMachine.Proofs.Interchange
import TapeMachine.Proofs.Safety
import TapeMachine.Tape.Metered

/-!
# What a failing character leaves behind

A character that fails has been taken down before it was carried out, and a replay that fails has done half of its work.
What is left of either is determined (`failure_footprint`).

* An unknown character changes nothing.
* A command that fails leaves the cells, the head and the output as they were, and its character at the end of the open
  recordings that it met on its way down (`ContextStack.Meets`).
* A replay that fails may have done anything to the tape and above the recording that it belongs to.  The recording
  itself is closed and in its place, and the contexts below it have taken down the bracket that closed it, if it was
  still open.  This is `Fall.keeps_closed`: no character of a sound nest gets at what is below a closed recording.
-/

namespace TapeMachine

variable {τ κ : Type}

/-! ### The way of a character through the contexts -/

namespace Context

/-- The index of the context that is told of a character.  A closed recording tells no one. -/
def forward? : Context κ → Option Nat
  | plain _ => none
  | recording r => if r.isOpen then r.parent else none
  | skip s => s.parent

/-- What becomes of a context, if there is one.  An open recording that was told of `c` has `c` at the end of what it
has recorded.  Any other context, and a recording that was not told, is as it was. -/
structure Records (c : Char) (told : Prop) (before after : Option (Context κ)) : Prop where
  taken (r : Recording κ) (htold : told) (hget : before = some (.recording r)) (hopen : r.isOpen) :
    after = some (.recording { r with recorded := r.recorded.push c })
  untouched (h : ∀ r, told → before = some (.recording r) → ¬r.isOpen) : after = before

/-- The context after the machine has let it take `c` down. -/
def save (c : Char) : Context κ → Context κ
  | recording r => recording (r.save c)
  | other => other

theorem save_of_isOpen {r : Recording κ} (hopen : r.isOpen) (c : Char) :
    save c (.recording r) = .recording { r with recorded := r.recorded.push c } := by
  rw [save, Recording.save, if_pos hopen]

theorem map_save_eq_self {context? : Option (Context κ)} (h : ∀ r, context? = some (.recording r) → ¬r.isOpen)
    (c : Char) : context?.map (save c) = context? := by
  match context? with
  | none | some (.plain _) | some (.skip _) => rfl
  | some (.recording r) => rw [Option.map_some, save, Recording.save, if_neg (h r rfl)]

/-- A context has recorded `c` if the machine has let it take `c` down. -/
theorem records_iff {c : Char} {told : Prop} {before after : Option (Context κ)} :
    Records c told before after ↔ (told → after = before.map (save c)) ∧ (¬told → after = before) := by
  constructor
  · intro h
    refine ⟨fun htold => ?_, fun htold => h.untouched fun _ ht => absurd ht htold⟩
    by_cases hopen : ∃ r, before = some (.recording r) ∧ r.isOpen
    · obtain ⟨r, rfl, hr⟩ := hopen
      rw [h.taken r htold rfl hr, Option.map_some, save_of_isOpen hr]
    · have hclosed : ∀ r, before = some (.recording r) → ¬r.isOpen := fun r hget hr => hopen ⟨r, hget, hr⟩
      rw [h.untouched fun r _ => hclosed r, map_save_eq_self hclosed]
  · rintro ⟨htaken, huntouched⟩
    refine ⟨fun r htold hget hr => ?_, fun h => ?_⟩
    · rw [htaken htold, hget, Option.map_some, save_of_isOpen hr]
    · by_cases htold : told
      · rw [htaken htold, map_save_eq_self fun r => h r htold]
      · exact huntouched htold

end Context

namespace ContextStack

/-- The contexts that a character meets: the one on top, and those that it is passed on to.  A closed recording passes
nothing on. -/
inductive Meets (stack : ContextStack κ) : Nat → Prop where
  | top {index : Nat} (htop : stack.topIndex? = some index) : Meets stack index
  | next {index parent : Nat} {context : Context κ} (h : stack.Meets index) (hget : stack.get? index = some context)
    (hforward : context.forward? = some parent) : Meets stack parent

/-- The context at `index` has recorded `c` if `c` meets it, and has not changed otherwise. -/
def TakesDown (c : Char) (before after : ContextStack κ) (index : Nat) : Prop :=
  Context.Records c (before.Meets index) (before.get? index) (after.get? index)

theorem takesDown_of_eq {c : Char} {before after : ContextStack κ} {index : Nat}
    (h : after.get? index = before.get? index) (hsave : (before.get? index).map (Context.save c) = before.get? index) :
    before.TakesDown c after index := by
  refine Context.records_iff.2 ⟨fun _ => ?_, fun _ => h⟩
  rw [hsave, h]

end ContextStack

/-! ### Notes of a character -/

section

variable {c : Char} {body : List Char} {level : Level} {above below levels : List Level}

theorem note_append_of_open (habove : ∀ level ∈ above, level.isOpen) (c : Char) (rest : List Level) :
    note c (above ++ rest) = (above.map fun level => { level with body := level.body ++ [c] }) ++ note c rest := by
  induction above with
  | nil => rfl
  | cons level above ih =>
    have hlevel := habove level List.mem_cons_self
    have hrest := ih fun level hmem => habove level (List.mem_cons_of_mem _ hmem)
    rw [List.cons_append, note, if_pos hlevel, hrest]
    rfl

theorem note_append_of_closed (habove : ¬∀ level ∈ above, level.isOpen) (c : Char) (rest : List Level) :
    note c (above ++ rest) = note c above ++ rest := by
  induction above with
  | nil => simp at habove
  | cons level above ih =>
    rw [List.cons_append, note, note]
    by_cases hlevel : level.isOpen
    · have hrest := ih fun hall => habove (List.forall_mem_cons.2 ⟨hlevel, hall⟩)
      rw [if_pos hlevel, if_pos hlevel, hrest]
      rfl
    · rw [if_neg hlevel, if_neg hlevel]
      rfl

/-- The level that has `i` others around it. -/
private theorem exists_split {i : Nat} (hi : i < levels.length) :
    ∃ above level below, levels = above ++ level :: below ∧ below.length = i := by
  induction levels with
  | nil => simp at hi
  | cons level levels ih =>
    by_cases hlt : i < levels.length
    · obtain ⟨above, level', below, rfl, hlength⟩ := ih hlt
      exact ⟨level :: above, level', below, rfl, hlength⟩
    · rw [List.length_cons] at hi
      exact ⟨[], level, levels, rfl, by omega⟩

/-- No character is noted below a closed level. -/
theorem suffix_note (h : ⟨body, false⟩ :: below <:+ levels) (c : Char) : ⟨body, false⟩ :: below <:+ note c levels := by
  induction levels with
  | nil => simp at h
  | cons level levels ih =>
    rcases List.suffix_cons_iff.1 h with heq | hsuffix
    · rw [← heq, note_closed]
    · rw [note]
      split
      · exact (ih hsuffix).trans (List.suffix_cons _ _)
      · exact hsuffix.trans (List.suffix_cons _ _)

end

namespace Dialect

variable {d : Dialect κ} {nest nest' : Nest} {s : Store τ} {c : Char}

/-! ### The contexts of a nest that is known from below -/

theorem suffix_tower {below levels : List Level} (h : below <:+ levels) : d.tower below <:+ d.tower levels := by
  induction levels with
  | nil => rw [List.suffix_nil.1 h]
  | cons level levels ih =>
    rcases List.suffix_cons_iff.1 h with rfl | hsuffix
    · exact List.suffix_rfl
    · exact (ih hsuffix).trans (List.suffix_cons _ _)

theorem get?_machine_of_suffix {below : List Level} (h : below <:+ nest.levels) (s : Store τ) {index : Nat}
    (hi : index ≤ below.length) : (d.machine nest s).stack.get? index = (d.tower below).reverse[index]? := by
  have hle := h.length_le
  obtain ⟨above, htower⟩ := suffix_tower (d := d) h
  have hlt : index < (d.tower below).reverse.length := by
    rw [List.length_reverse, length_tower]
    omega
  rw [get?_machine d nest s (by omega), ← htower, List.reverse_append, List.getElem?_append_left hlt]

theorem get?_machine_suffix_top {level : Level} {below : List Level} (h : level :: below <:+ nest.levels)
    (s : Store τ) : (d.machine nest s).stack.get? (below.length + 1) = some (d.recording level below) := by
  have hget := get?_machine_of_suffix (d := d) h s (Nat.le_refl (level :: below).length)
  rw [List.length_cons] at hget
  rw [hget, tower, List.reverse_cons, List.getElem?_append_right (by simp)]
  simp

/-- The contexts of the levels, one by one. -/
theorem get?_machine_cases {levels : List Level} {index : Nat} {context : Context κ}
    (h : (d.machine ⟨levels, 0⟩ s).stack.get? index = some context) :
    (index = 0 ∧ context = .plain d.commands) ∨
      ∃ above level below, levels = above ++ level :: below ∧ index = below.length + 1 ∧
        context = d.recording level below := by
  have hsize : index < (d.machine ⟨levels, 0⟩ s).stack.size := by
    by_contra hge
    rw [ContextStack.get?_eq_none_iff.2 (Nat.le_of_not_lt hge)] at h
    cases h
  rw [size_machine] at hsize
  cases index with
  | zero =>
    rw [get?_machine_root] at h
    exact .inl ⟨rfl, (Option.some.inj h).symm⟩
  | succ i =>
    have hi : i < levels.length := by
      simp only [if_true] at hsize
      omega
    obtain ⟨above, level, below, rfl, rfl⟩ := exists_split hi
    rw [get?_machine_suffix_top (List.suffix_append above _)] at h
    exact .inr ⟨above, level, below, rfl, rfl, (Option.some.inj h).symm⟩

/-- If the context on top is a recording, it is that of the innermost level. -/
theorem exists_of_top_recording {r : Recording κ}
    (h : (d.machine nest s).stack.get? (topIndex nest) = some (.recording r)) :
    ∃ body isOpen levels, nest = ⟨⟨body, isOpen⟩ :: levels, 0⟩ ∧
      r = ⟨d.commands, d.exit, body.toArray, isOpen, scope levels⟩ := by
  obtain ⟨levels, skipped⟩ := nest
  cases skipped with
  | succ depth =>
    rw [topIndex, if_neg (Nat.succ_ne_zero depth), get?_machine_skipped d s (Nat.succ_ne_zero depth)] at h
    cases h
  | zero =>
    cases levels with
    | nil =>
      rw [topIndex, if_pos rfl, List.length_nil, get?_machine_root] at h
      cases h
    | cons level levels =>
      rw [topIndex, if_pos rfl, List.length_cons, get?_machine_suffix_top List.suffix_rfl] at h
      cases h
      exact ⟨level.body, level.isOpen, levels, rfl, rfl⟩

theorem forward?_recording (level : Level) (levels : List Level) :
    (d.recording level levels).forward? = if level.isOpen then scope levels else none := rfl

private theorem isOpen_of_meets {levels above below : List Level} {level : Level} {index : Nat}
    (h : (d.machine ⟨levels, 0⟩ s).stack.Meets index) (hlevels : above ++ level :: below = levels)
    (hindex : below.length + 1 = index) : ∀ level ∈ above, level.isOpen := by
  induction h generalizing above level below with
  | top htop =>
    have habove : above.length = 0 := by
      rw [topIndex?_machine, topIndex, if_pos rfl, Option.some.injEq] at htop
      rw [← hlevels, List.length_append, List.length_cons] at htop
      omega
    rw [List.length_eq_zero_iff.1 habove]
    simp
  | @next index parent context _ hget hforward ih =>
    rcases get?_machine_cases hget with ⟨-, rfl⟩ | ⟨above', level', below', hlevels', hindex', rfl⟩
    · cases hforward
    -- the level that has passed the character on is open, was met before, and is next above
    rw [forward?_recording, scope_eq] at hforward
    split at hforward
    · next hopen =>
      have hlength : below'.length = (level :: below).length := by
        split at hforward
        · cases hforward
        · rw [List.length_cons, hindex]
          exact Option.some.inj hforward
      have happend : above ++ level :: below = (above' ++ [level']) ++ below' := by
        rw [hlevels, hlevels', List.append_cons]
      obtain ⟨rfl, -⟩ := List.append_inj' happend hlength.symm
      have habove := ih hlevels'.symm hindex'.symm
      intro level hmem
      rcases List.mem_append.1 hmem with hmem | hmem
      · exact habove level hmem
      · rw [List.mem_singleton.1 hmem]
        exact hopen
    · cases hforward

private theorem meets_of_isOpen {above below : List Level} {level : Level} (habove : ∀ level ∈ above, level.isOpen)
    (s : Store τ) : (d.machine ⟨above ++ level :: below, 0⟩ s).stack.Meets (below.length + 1) := by
  induction above using List.reverseRecOn generalizing level below with
  | nil =>
    refine .top ?_
    rw [topIndex?_machine]
    rfl
  | append_singleton above level' ih =>
    have hopen : level'.isOpen := habove level' (by simp)
    have hmeets : (d.machine ⟨above ++ level' :: level :: below, 0⟩ s).stack.Meets ((level :: below).length + 1) :=
      ih fun level hmem => habove level (List.mem_append_left _ hmem)
    have hsuffix : level' :: level :: below <:+ (⟨above ++ level' :: level :: below, 0⟩ : Nest).levels :=
      List.suffix_append above _
    have hget := get?_machine_suffix_top (d := d) hsuffix s
    rw [List.append_assoc]
    refine hmeets.next hget ?_
    rw [forward?_recording, if_pos hopen]
    rfl

/-- A character meets the levels that have only open ones above them. -/
theorem meets_machine_iff {above below : List Level} {level : Level} (s : Store τ) :
    (d.machine ⟨above ++ level :: below, 0⟩ s).stack.Meets (below.length + 1) ↔ ∀ level ∈ above, level.isOpen :=
  ⟨fun h => isOpen_of_meets h rfl rfl, fun habove => meets_of_isOpen habove s⟩

/-- A character that is noted is taken down by the contexts that it meets. -/
theorem takesDown_note (levels : List Level) (c : Char) (s s' : Store τ) (index : Nat) :
    (d.machine ⟨levels, 0⟩ s).stack.TakesDown c (d.machine ⟨note c levels, 0⟩ s').stack index := by
  cases hget : (d.machine ⟨levels, 0⟩ s).stack.get? index with
  | none =>
    refine ContextStack.takesDown_of_eq ?_ (by rw [hget]; rfl)
    rw [hget]
    rw [ContextStack.get?_eq_none_iff, size_machine] at hget ⊢
    rwa [length_note]
  | some context =>
    rcases get?_machine_cases hget with ⟨rfl, rfl⟩ | ⟨above, level, below, rfl, rfl, rfl⟩
    · refine ContextStack.takesDown_of_eq ?_ (by rw [hget]; rfl)
      rw [hget, get?_machine_root]
    · rw [ContextStack.TakesDown, Context.records_iff, meets_machine_iff, hget]
      constructor
      · intro hopen
        have hafter : note c (level :: below) <:+ (⟨note c (above ++ level :: below), 0⟩ : Nest).levels := by
          rw [note_append_of_open hopen]
          exact List.suffix_append _ _
        rw [note] at hafter
        split at hafter
        · next hlevel =>
          have htop := get?_machine_suffix_top (d := d) hafter s'
          rw [length_note] at htop
          rw [htop]
          simp [recording, Context.save, Recording.save, hlevel]
        · next hlevel =>
          rw [get?_machine_suffix_top hafter]
          simp [recording, Context.save, Recording.save, hlevel]
      · intro hclosed
        have hafter : level :: below <:+ (⟨note c (above ++ level :: below), 0⟩ : Nest).levels := by
          rw [note_append_of_closed hclosed]
          exact List.suffix_append _ _
        rw [get?_machine_suffix_top hafter]

/-! ### What is below a closed level -/

/-- A text that closes no loop around it does not get at what is below a closed level. -/
theorem Runs.keeps_closed {body text : List Char} {below : List Level}
    (h : d.Runs ⟨⟨body, false⟩ :: below, 0⟩ text nest) {depth : Nat} (hdepth : d.depthFrom 0 text = some depth) :
    ⟨body, false⟩ :: below <:+ nest.levels := by
  obtain ⟨skipped, -, rfl⟩ := h.inside hdepth
  rw [Dialect.inside, noteAll_closed]
  exact List.suffix_append _ _

variable [Tape τ] {custom : κ → Store τ → Outcome (Store τ)} {fault : Fault}

/-- A character that fails does not get at what is below a closed level either. -/
theorem Fall.keeps_closed {body : List Char} {below : List Level} (h : d.Fall custom nest c fault nest')
    (hs : d.Sound nest) (hbelow : ⟨body, false⟩ :: below <:+ nest.levels) :
    ⟨body, false⟩ :: below <:+ nest'.levels := by
  induction h with
  | act hc hact levels => exact suffix_note hbelow _
  | @replay text rest c fault nest nest' isOpen levels hruns hfall ih =>
    have hclosed := hs.closed
    obtain ⟨depth, hdepth, -⟩ := Brackets.depthFrom_of_append hclosed.1.depth
    refine ih (hruns.sound hclosed) (List.IsSuffix.trans ?_ (hruns.keeps_closed hdepth))
    rcases List.suffix_cons_iff.1 hbelow with heq | hsuffix
    · obtain ⟨⟨rfl, rfl⟩, rfl⟩ := by simpa using heq
      exact List.suffix_rfl
    · refine List.IsSuffix.trans ?_ (List.suffix_cons _ _)
      split
      · exact suffix_note hsuffix d.exit
      · exact hsuffix

open Machine (onStore executeAt)

theorem Fall.keeps_replayed {body : List Char} {isOpen : Bool} {levels : List Level}
    (h : d.Fall custom ⟨⟨body, isOpen⟩ :: levels, 0⟩ d.exit fault nest') (hs : d.Sound ⟨⟨body, isOpen⟩ :: levels, 0⟩) :
    ⟨body, false⟩ :: (if isOpen then note d.exit levels else levels) <:+ nest'.levels := by
  cases h with
  | act hc => exact absurd rfl (ne_exit_of_acts hc)
  | replay _ _ hruns hfall =>
    obtain ⟨depth, hdepth, -⟩ := Brackets.depthFrom_of_append hs.closed.1.depth
    exact hfall.keeps_closed (hruns.sound hs.closed) (hruns.keeps_closed hdepth)

/-- After a replay that failed, the recording that was on top is closed and in its place. -/
theorem Fall.get?_replayed {body : List Char} {isOpen : Bool} {levels : List Level}
    (h : d.Fall custom ⟨⟨body, isOpen⟩ :: levels, 0⟩ d.exit fault nest') (hs : d.Sound ⟨⟨body, isOpen⟩ :: levels, 0⟩)
    (s : Store τ) :
    (d.machine nest' s).stack.get? (levels.length + 1) = some (d.recording ⟨body, false⟩ levels) := by
  have hget := get?_machine_suffix_top (d := d) (h.keeps_replayed hs) s
  cases isOpen with
  | true => rwa [if_pos rfl, length_note, recording_note] at hget
  | false => exact hget

/-- After a replay that failed, what is below the recording that was on top has taken down the bracket. -/
theorem Fall.takesDown {body : List Char} {isOpen : Bool} {levels : List Level}
    (h : d.Fall custom ⟨⟨body, isOpen⟩ :: levels, 0⟩ d.exit fault nest') (hs : d.Sound ⟨⟨body, isOpen⟩ :: levels, 0⟩)
    (s s' : Store τ) {index : Nat} (hindex : index < levels.length + 1) :
    (d.machine ⟨⟨body, isOpen⟩ :: levels, 0⟩ s).stack.TakesDown d.exit (d.machine nest' s').stack index := by
  have hbelow := (List.suffix_cons _ _).trans (h.keeps_replayed hs)
  have hnoted : (if isOpen then note d.exit levels else levels) <:+
      (⟨note d.exit (⟨body, isOpen⟩ :: levels), 0⟩ : Nest).levels := by
    cases isOpen with
    | true => exact List.suffix_cons _ _
    | false => exact List.suffix_cons _ _
  have hle : index ≤ (if isOpen then note d.exit levels else levels).length := by
    split
    · rw [length_note]
      omega
    · omega
  have hafter : (d.machine nest' s').stack.get? index =
      (d.machine ⟨note d.exit (⟨body, isOpen⟩ :: levels), 0⟩ s').stack.get? index := by
    rw [get?_machine_of_suffix hbelow s' hle, get?_machine_of_suffix hnoted s' hle]
  rw [ContextStack.TakesDown, hafter]
  exact takesDown_note _ d.exit s s' index

/-- A command that fails has failed on the store, once its character was noted. -/
theorem executeAt_act_failed (hc : d.Acts c) {levels : List Level} {fuel : Nat} {m' : Machine τ κ}
    (h : executeAt (onStore custom) fuel levels.length c (d.machine ⟨levels, 0⟩ s) = .failed fault m') :
    ∃ s', d.act custom c s = .failed fault s' ∧ m' = d.machine ⟨note c levels, 0⟩ s' := by
  have hmore := Machine.executeAt_extends (onStore custom) (Nat.le_add_right fuel (levels.length + 1)) levels.length c
    (d.machine ⟨levels, 0⟩ s) (by rw [h]; simp)
  rw [h, ← Nat.add_assoc, executeAt_act custom hc levels (Nat.le_add_left _ _)] at hmore
  cases hact : d.act custom c s with
  | failed fault' s' =>
    rw [hact] at hmore
    cases hmore
    exact ⟨s', rfl, rfl⟩
  | done s' | aborted cause =>
    rw [hact] at hmore
    cases hmore

end Dialect

/-! ### The store after a command that failed -/

/-- Reading a cell does not change what can be seen of the tape. -/
class Tape.Steady (τ : Type) [Tape τ] : Prop where
  sameView_of_read {t t' : τ} {value : Cell} (h : Tape.read? t = some (value, t')) : Tape.SameView t t'

theorem Tape.SameView.rfl {τ : Type} [Tape τ] {t : τ} : Tape.SameView t t := ⟨Eq.refl _, Eq.refl _, fun _ => Eq.refl _⟩

instance : Tape.Steady FixedTape where
  sameView_of_read := by
    intro t t' value h
    rw [FixedTape.eq_of_read h]
    exact .rfl

instance : Tape.Steady SparseTape where
  sameView_of_read := by
    intro t t' value h
    rw [SparseTape.eq_of_read h]
    exact .rfl

instance {τ : Type} [Tape τ] [Tape.Steady τ] : Tape.Steady (MeteredTape τ) where
  sameView_of_read := by
    intro t t' value h
    change MeteredTape.read? t = some (value, t') at h
    unfold MeteredTape.read? at h
    split at h
    · obtain ⟨⟨_, tape⟩, hread, heq⟩ := Option.map_eq_some_iff.1 h
      cases heq
      have hview := Tape.Steady.sameView_of_read hread
      exact ⟨hview.head, hview.capacity, hview.cells⟩
    · cases h
      exact ⟨rfl, rfl, fun _ => rfl⟩

theorem Sink.written_of_write {s s' : Sink} {byte : UInt8} {reason : String} (h : s.write byte = (.error reason, s')) :
    s'.written = s.written := by
  unfold Sink.write at h
  dsimp only at h
  split at h <;> cases h <;> rfl

theorem Source.bytes_of_read {s s' : Source} {reason : String} (h : s.read = (.error reason, s')) :
    s'.bytes = s.bytes := by
  unfold Source.read at h
  dsimp only at h
  split at h
  · cases h
    rfl
  · split at h <;> cases h

namespace Store

variable [Tape τ]

/-- The cells, the head, the input that is left and the output are those of before. -/
structure Unharmed (s s' : Store τ) : Prop where
  tape : Tape.SameView s.tape s'.tape
  input : s'.input.bytes = s.input.bytes
  output : s'.output.written = s.output.written

/-- A command that fails has done nothing to the store. -/
theorem unharmed_of_perform [Tape.Steady τ] {command : Command Empty} (hloop : ∀ x, command ≠ .enterLoop x)
    {s s' : Store τ} {fault : Fault} (h : s.perform Machine.noCustom command = .failed fault s') : s.Unharmed s' := by
  cases fails_of_perform hloop h with
  | outOfBounds | halt => exact ⟨.rfl, rfl, rfl⟩
  | sink hread hwrite => exact ⟨Tape.Steady.sameView_of_read hread, rfl, Sink.written_of_write hwrite⟩
  | source hread => exact ⟨.rfl, Source.bytes_of_read hread, rfl⟩
  | @host command => cases command

end Store

/-! ### The footprint -/

/-- What a character that fails in the context at `top` may have changed. -/
structure Machine.Footprint [Tape τ] (top : Nat) (c : Char) (fault : Fault) (m m' : Machine τ κ) : Prop where
  /-- A character that is unknown has changed nothing. -/
  unknown (x : Char) (hfault : fault = .unknownCharacter x) : m' = m
  /-- A command has been taken down, and that is all. -/
  command (hfault : ∀ x, fault ≠ .unknownCharacter x)
    (hexit : ∀ r, m.stack.get? top = some (.recording r) → c ≠ r.exit) :
    m.store.Unharmed m'.store ∧ m'.stack.size = m.stack.size ∧ ∀ index, m.stack.TakesDown c m'.stack index
  /-- The loop whose replay failed is closed and in its place, and what is below it has taken down the bracket. -/
  replay (r : Recording κ) (htop : m.stack.get? top = some (.recording r)) (hexit : c = r.exit) :
    m'.stack.get? top = some (.recording { r with isOpen := false }) ∧
      ∀ index < top, m.stack.TakesDown c m'.stack index

variable [Tape τ]

namespace Dialect

variable {d : Dialect Empty} {nest nest' : Nest} {s s' : Store τ} {c : Char} {fault : Fault}

theorem footprint_of_unknown (h : d.Unknown nest c) :
    (d.machine nest s).Footprint (topIndex nest) c (.unknownCharacter c) (d.machine nest s) := by
  refine ⟨fun _ _ => rfl, fun hfault => absurd rfl (hfault c), ?_⟩
  intro r htop hexit
  obtain ⟨body, isOpen, levels, rfl, rfl⟩ := exists_of_top_recording htop
  -- in a loop the bracket that closes it is known
  rcases h with h | ⟨-, -, h, -⟩
  · exact absurd (.inl hexit) h
  · cases h

theorem footprint_of_act [Tape.Steady τ] {levels : List Level} (hc : d.Acts c)
    (hact : d.act Machine.noCustom c s = .failed fault s') :
    (d.machine ⟨levels, 0⟩ s).Footprint (topIndex ⟨levels, 0⟩) c fault (d.machine ⟨note c levels, 0⟩ s') := by
  have hown := isOwn_of_act hc hact
  refine ⟨?_, ?_, ?_⟩
  · rintro x rfl
    exact hown.elim
  · intro _ _
    refine ⟨?_, ?_, takesDown_note levels c s s'⟩
    · obtain ⟨-, command, hcommand, hloop⟩ := hc
      rw [act, hcommand] at hact
      exact Store.unharmed_of_perform hloop hact
    · rw [size_machine, size_machine, length_note]
  · intro r htop hexit
    obtain ⟨body, isOpen, levels, -, rfl⟩ := exists_of_top_recording htop
    exact absurd hexit hc.1

theorem footprint_of_replay {body : List Char} {isOpen : Bool} {levels : List Level}
    (h : Fall (τ := τ) d Machine.noCustom ⟨⟨body, isOpen⟩ :: levels, 0⟩ d.exit fault nest')
    (hs : d.Sound ⟨⟨body, isOpen⟩ :: levels, 0⟩) (s s' : Store τ) :
    (d.machine ⟨⟨body, isOpen⟩ :: levels, 0⟩ s).Footprint (topIndex ⟨⟨body, isOpen⟩ :: levels, 0⟩) d.exit fault
      (d.machine nest' s') := by
  have hown := h.isOwn
  refine ⟨?_, ?_, ?_⟩
  · rintro x rfl
    exact hown.elim
  · intro _ hne
    exact absurd rfl (hne _ (get?_machine_suffix_top List.suffix_rfl s))
  · intro r htop _
    obtain ⟨_, _, _, heq, rfl⟩ := exists_of_top_recording htop
    cases heq
    exact ⟨h.get?_replayed hs s', fun index hindex => h.takesDown hs s s' hindex⟩

theorem footprint_of_executeAt [Tape.Steady τ] [d.Sole] (hexit : d.commands[d.exit]? = none) (hs : d.Sound nest)
    {fuel : Nat} {m' : Machine τ Empty}
    (h : Machine.executeAt Machine.noHost fuel (topIndex nest) c (d.machine nest s) = .failed fault m') :
    (d.machine nest s).Footprint (topIndex nest) c fault m' := by
  rw [Machine.noHost_eq_onStore] at h
  have hleads : d.Leads Machine.noCustom nest c s _ := executeAt_leads hexit fuel c s hs
  rw [h] at hleads
  cases hleads with
  | unknown hunknown => exact footprint_of_unknown hunknown
  | @failed _ nest' hfall s' =>
    cases hfall with
    | act hc _ levels =>
      -- the failure is that of a command on some store, and has to be traced to the one at hand
      obtain ⟨s', hact, heq⟩ := executeAt_act_failed hc h
      rw [heq]
      exact footprint_of_act hc hact
    | replay isOpen levels hruns hfall => exact footprint_of_replay (.replay isOpen levels hruns hfall) hs s s'

end Dialect

/-- What a character that fails leaves behind, in whatever state the runner has been left by the calls before. -/
theorem failure_footprint [Tape.Steady τ] (tape : τ) (policy : Policy) (input : Source) (output : Sink)
    {r₀ r : Runner τ Empty} (hstart : Runner.start tape {} .standard policy input output = .ok r₀) {fuel : Nat}
    {text : List Char} (hfed : r₀.endure Machine.noHost fuel text = some r) {top : Nat}
    (htop : r.machine.stack.topIndex? = some top) {fuel' : Nat} {c : Char} {fault : Fault} {m' : Machine τ Empty}
    (hfailed : Machine.executeAt Machine.noHost fuel' top c r.machine = .failed fault m') :
    r.machine.Footprint top c fault m' := by
  obtain rfl := Except.ok.inj ((Runner.start_machine .standard tape policy input output).symm.trans hstart)
  have hroot : (Dialect.standard (κ := Empty)).Sound ⟨[], 0⟩ := trivial
  obtain ⟨nest, s, isFinished, rfl, hsound⟩ := Runner.sound_of_endure rfl hroot hfed
  rw [Dialect.topIndex?_machine, Option.some.injEq] at htop
  subst htop
  exact Dialect.footprint_of_executeAt rfl hsound hfailed

/-- The sink refuses a byte in the replay of a loop inside another.  A move has failed before, and is part of the outer
loop. -/
theorem failure_footprint_of_inner_replay :
    let r₀ : Runner FixedTape Empty :=
      ⟨Dialect.standard.machine ⟨[], 0⟩ ⟨⟨#[0], 0⟩, .ofBytes [], .closingAfter 1⟩, .standard, false⟩
    let m : Machine FixedTape Empty :=
      Dialect.standard.machine ⟨[⟨['.'], true⟩, ⟨['<', '[', '.'], true⟩], 0⟩
        ⟨⟨#[1], 0⟩, .ofBytes [], { Sink.closingAfter 0 with written := #[1] }⟩
    let m' : Machine FixedTape Empty :=
      Dialect.standard.machine ⟨[⟨['.'], false⟩, ⟨['<', '[', '.', ']'], true⟩], 0⟩
        ⟨⟨#[1], 0⟩, .ofBytes [], { written := #[1], lasting := .refuse "sink closed" }⟩
    Runner.start (⟨#[0], 0⟩ : FixedTape) {} .standard .standard (.ofBytes []) (.closingAfter 1) = .ok r₀ ∧
      r₀.endure Machine.noHost 9 ['+', '[', '<', '[', '.'] = some ⟨m, .standard, false⟩ ∧
      m.stack.topIndex? = some 2 ∧ Machine.executeAt Machine.noHost 9 2 ']' m = .failed (.io "sink closed") m' ∧
      m.Footprint 2 ']' (.io "sink closed") m' := by
  intro r₀ m m'
  have hstart :
      Runner.start (⟨#[0], 0⟩ : FixedTape) {} .standard .standard (.ofBytes []) (.closingAfter 1) = .ok r₀ := rfl
  have hfed : r₀.endure Machine.noHost 9 ['+', '[', '<', '[', '.'] = some ⟨m, .standard, false⟩ := rfl
  have htop : m.stack.topIndex? = some 2 := rfl
  have hfailed : Machine.executeAt Machine.noHost 9 2 ']' m = .failed (.io "sink closed") m' := rfl
  exact ⟨hstart, hfed, htop, hfailed, failure_footprint _ _ _ _ hstart hfed htop hfailed⟩

end TapeMachine
