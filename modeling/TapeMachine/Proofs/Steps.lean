import TapeMachine.Proofs.Jam
import TapeMachine.Proofs.Nest

/-!
# What a character can do to a nest

The contexts of a machine change in few ways.  `Step` lists what a character that is carried out can do to a nest, and
`Fall` what one that fails can leave behind.  The main statement is `executeAt_leads`: on a machine with the contexts
of a sound nest nothing else can happen.  If the mapping has loops of other kinds, there is one thing more: a loop that
is opened inside one of another kind jams the machine (`executeAt_leads_or_jams`).

A nest is `Sound` if every recording is as deep in brackets as the nest has loops above it, up to the first closed
recording, and every closed recording is balanced.  That is why a replay ends with the nest it started from
(`runs_closed`): the body of the loop closes every loop that it opens, whichever of them are entered and whichever are
skipped.
-/

namespace TapeMachine.Dialect

variable {κ : Type} (d : Dialect κ)

/-- What a character that is carried out can do to a nest. -/
inductive Step : Nest → Char → Nest → Prop where
  | act {c : Char} (hc : d.Acts c) (levels : List Level) (skipped : Nat) :
    Step ⟨levels, skipped⟩ c ⟨note c levels, skipped⟩
  /-- A loop is skipped, or is part of one that is skipped. -/
  | skip (levels : List Level) (skipped : Nat) : Step ⟨levels, skipped⟩ d.enter ⟨note d.enter levels, skipped + 1⟩
  | enter (levels : List Level) : Step ⟨levels, 0⟩ d.enter ⟨⟨[], true⟩ :: note d.enter levels, 0⟩
  /-- A loop of another kind is part of one that is skipped. -/
  | pass {c : Char} (hc : d.Foreign c) (levels : List Level) (skipped : Nat) :
    Step ⟨levels, skipped + 1⟩ c ⟨note c levels, skipped + 1⟩
  | unskip (levels : List Level) (skipped : Nat) : Step ⟨levels, skipped + 1⟩ d.exit ⟨note d.exit levels, skipped⟩
  | exit (body : List Char) (isOpen : Bool) (levels : List Level) :
    Step ⟨⟨body, isOpen⟩ :: levels, 0⟩ d.exit ⟨if isOpen then note d.exit levels else levels, 0⟩

/-- What a text that is carried out can do to a nest. -/
inductive Runs : Nest → List Char → Nest → Prop where
  | refl (nest : Nest) : Runs nest [] nest
  | concat {nest nest' nest'' : Nest} {text : List Char} {c : Char} (htext : Runs nest text nest')
    (hc : d.Step nest' c nest'') : Runs nest (text ++ [c]) nest''

/-! ### Sound nests -/

/-- A text of known characters that ends at `depth`, with loops of another kind inside loops only. -/
structure Spells (depth : Nat) (body : List Char) : Prop where
  depth : d.depthFrom 0 body = some depth
  knows : ∀ c ∈ body, d.Knows c
  inside : ∀ text c rest, body = text ++ c :: rest → d.Foreign c → d.depthFrom 0 text ≠ some 0

/-- The recordings are as deep as they should be inside `depth` loops. -/
def SoundLevels : Nat → List Level → Prop
  | _, [] => True
  | depth, ⟨body, true⟩ :: levels => d.Spells depth body ∧ SoundLevels (depth + 1) levels
  | _, ⟨body, false⟩ :: levels => d.Spells 0 body ∧ SoundLevels 0 levels

/-- The open recordings are as deep as there are loops above them, and the closed ones are balanced. -/
def Sound (nest : Nest) : Prop := d.SoundLevels nest.skipped nest.levels

variable {d}

theorem not_foreign_enter : ¬d.Foreign d.enter := fun h => h.1 rfl

theorem not_foreign_exit : ¬d.Foreign d.exit := fun h => h.2.1 rfl

private theorem Spells.concat {depth depth' : Nat} {body : List Char} {c : Char} (h : d.Spells depth body)
    (hc : d.Knows c) (hforeign : d.Foreign c → depth ≠ 0) (hshift : d.shift? depth c = some depth') :
    d.Spells depth' (body ++ [c]) := by
  refine ⟨?_, ?_, ?_⟩
  · rw [Brackets.depthFrom_concat h.1, hshift]
  · intro c' hc'
    rcases List.mem_append.1 hc' with hc' | hc'
    · exact h.2 c' hc'
    · rw [List.mem_singleton.1 hc']
      exact hc
  · intro text c' rest heq hc'
    rcases List.eq_nil_or_concat rest with rfl | ⟨rest, last, rfl⟩
    · obtain ⟨rfl, ⟨⟩⟩ := List.append_inj' heq rfl
      rw [h.1]
      simpa using hforeign hc'
    · rw [List.concat_eq_append, ← List.cons_append, ← List.append_assoc] at heq
      exact h.3 text c' rest (List.append_inj' heq rfl).1 hc'

theorem SoundLevels.note {depth depth' : Nat} {levels : List Level} {c : Char} (h : d.SoundLevels depth levels)
    (hc : d.Knows c) (hforeign : d.Foreign c → depth ≠ 0) (hshift : d.shift? depth c = some depth') :
    d.SoundLevels depth' (note c levels) := by
  induction levels generalizing depth depth' with
  | nil => trivial
  | cons level levels ih =>
    obtain ⟨body, isOpen⟩ := level
    cases isOpen with
    | true =>
      rw [note_open]
      exact ⟨h.1.concat hc hforeign hshift, ih h.2 (fun _ => Nat.succ_ne_zero _) (Brackets.shift?_add hshift 1)⟩
    | false => exact h

theorem SoundLevels.note_act {depth : Nat} {levels : List Level} {c : Char} (h : d.SoundLevels depth levels)
    (hc : d.Acts c) : d.SoundLevels depth (TapeMachine.note c levels) :=
  h.note (knows_of_acts hc) (absurd · (not_foreign_of_acts hc))
    (Brackets.shift?_other (ne_enter_of_acts hc) (ne_exit_of_acts hc) depth)

theorem SoundLevels.note_enter {depth : Nat} {levels : List Level} (h : d.SoundLevels depth levels) :
    d.SoundLevels (depth + 1) (TapeMachine.note d.enter levels) :=
  h.note d.knows_enter (absurd · not_foreign_enter) (Brackets.shift?_enter depth)

theorem SoundLevels.note_exit {depth : Nat} {levels : List Level} (h : d.SoundLevels (depth + 1) levels) :
    d.SoundLevels depth (TapeMachine.note d.exit levels) :=
  h.note d.knows_exit (absurd · not_foreign_exit) (Brackets.shift?_exit_succ depth)

theorem Step.sound {nest nest' : Nest} {c : Char} (h : d.Step nest c nest') (hs : d.Sound nest) : d.Sound nest' := by
  cases h with
  | act hc levels skipped => exact SoundLevels.note_act hs hc
  | skip levels skipped => exact SoundLevels.note_enter hs
  | enter levels => exact ⟨⟨rfl, by simp, by simp⟩, SoundLevels.note_enter hs⟩
  | pass hc levels skipped =>
    exact SoundLevels.note hs (knows_iff.2 (.inr (.inr (.inr hc)))) (fun _ => Nat.succ_ne_zero skipped)
      (Brackets.shift?_other hc.1 hc.2.1 (skipped + 1))
  | unskip levels skipped => exact SoundLevels.note_exit hs
  | exit body isOpen levels =>
    cases isOpen with
    | true => exact SoundLevels.note_exit hs.2
    | false => exact hs.2

theorem Runs.sound {nest nest' : Nest} {text : List Char} (h : d.Runs nest text nest') (hs : d.Sound nest) :
    d.Sound nest' := by
  induction h with
  | refl => exact hs
  | concat _ hc ih => exact hc.sound ih

/-- The nest is sound when the loop on top has been closed and is about to be replayed. -/
theorem Sound.closed {body : List Char} {isOpen : Bool} {levels : List Level}
    (hs : d.Sound ⟨⟨body, isOpen⟩ :: levels, 0⟩) :
    d.Sound ⟨⟨body, false⟩ :: if isOpen then note d.exit levels else levels, 0⟩ := by
  cases isOpen with
  | true => exact ⟨hs.1, SoundLevels.note_exit hs.2⟩
  | false => exact hs

/-! ### The loops that a text has opened -/

/-- The levels after a text. -/
def noteAll (text : List Char) (levels : List Level) : List Level := text.foldl (fun levels c => note c levels) levels

theorem noteAll_concat (text : List Char) (c : Char) (levels : List Level) :
    noteAll (text ++ [c]) levels = note c (noteAll text levels) := by
  simp [noteAll]

theorem length_noteAll (text : List Char) (levels : List Level) : (noteAll text levels).length = levels.length := by
  induction text generalizing levels with
  | nil => rfl
  | cons c text ih => exact (ih (note c levels)).trans (length_note c levels)

theorem noteAll_closed (text body : List Char) (levels : List Level) :
    noteAll text (⟨body, false⟩ :: levels) = ⟨body, false⟩ :: levels := by
  induction text with
  | nil => rfl
  | cons c text ih => exact ih

theorem note_map_open (c : Char) (tails : List (List Char)) (levels : List Level) :
    note c (tails.map (⟨·, true⟩) ++ levels) = (tails.map (· ++ [c])).map (⟨·, true⟩) ++ note c levels := by
  induction tails with
  | nil => rfl
  | cons tail tails ih => simp [ih]

/-- The nest inside `levels` after a text that left the loops of `tails` open, the innermost `skipped` of them being
skipped. -/
def inside (levels : List Level) (tails : List (List Char)) (skipped : Nat) : Nest :=
  ⟨(tails.drop skipped).map (⟨·, true⟩) ++ levels, skipped⟩

/-- One more character changes the recordings of the loops left open as it changes the texts after their brackets.
The text must not close a loop that it has not opened. -/
theorem Step.inside {levels : List Level} {text : List Char} {skipped : Nat} {c : Char} {nest : Nest}
    (h : d.Step (inside levels (d.openTails text) skipped) c nest) (hskipped : skipped ≤ (d.openTails text).length)
    (hexit : c = d.exit → levels = [] ∨ d.openTails text ≠ []) :
    ∃ skipped', skipped' ≤ (d.openTails (text ++ [c])).length ∧
      nest = Dialect.inside (note c levels) (d.openTails (text ++ [c])) skipped' := by
  unfold Dialect.inside at h ⊢
  generalize hnest : ((d.openTails text).drop skipped).map (⟨·, true⟩) ++ levels = all at h
  cases h with
  | act hc =>
    rw [Brackets.openTails_other (ne_enter_of_acts hc) (ne_exit_of_acts hc)]
    refine ⟨skipped, by simpa using hskipped, ?_⟩
    rw [← hnest, note_map_open, List.map_drop]
  | pass hc _ skipped =>
    rw [Brackets.openTails_other hc.1 hc.2.1]
    refine ⟨skipped + 1, by simpa using hskipped, ?_⟩
    rw [← hnest, note_map_open, List.map_drop]
  | skip =>
    rw [Brackets.openTails_enter]
    refine ⟨skipped + 1, by simpa using hskipped, ?_⟩
    rw [← hnest, note_map_open, List.drop_succ_cons, List.map_drop]
  | enter =>
    rw [Brackets.openTails_enter]
    refine ⟨0, by simp, ?_⟩
    rw [← hnest, note_map_open]
    rfl
  | unskip _ skipped =>
    rw [Brackets.openTails_exit]
    refine ⟨skipped, by simp; omega, ?_⟩
    rw [← hnest, note_map_open, ← List.map_drop, List.drop_tail]
  | exit body isOpen all =>
    rw [Brackets.openTails_exit]
    refine ⟨0, by simp, ?_⟩
    cases htails : d.openTails text with
    | nil =>
      rcases hexit rfl with hlevels | hne
      · simp [htails, hlevels] at hnest
      · exact absurd htails hne
    | cons tail tails =>
      simp only [htails, List.drop_zero, List.map_cons, List.cons_append, List.cons.injEq, Level.mk.injEq] at hnest
      obtain ⟨⟨rfl, rfl⟩, rfl⟩ := hnest
      simp [note_map_open]

/-- A text that closes no loop around it leaves its own open loops inside the levels. -/
theorem Runs.inside {levels : List Level} {text : List Char} {nest : Nest} (h : d.Runs ⟨levels, 0⟩ text nest)
    {depth : Nat} (hdepth : d.depthFrom 0 text = some depth) :
    ∃ skipped, skipped ≤ (d.openTails text).length ∧
      nest = Dialect.inside (noteAll text levels) (d.openTails text) skipped := by
  induction h generalizing depth with
  | refl => exact ⟨0, by simp, rfl⟩
  | @concat nest nest' text c _ hc ih =>
    obtain ⟨depth', htext, hshift⟩ := Brackets.depthFrom_of_append hdepth
    obtain ⟨skipped, hskipped, rfl⟩ := ih htext
    rw [noteAll_concat]
    refine hc.inside hskipped ?_
    rintro rfl
    right
    rintro htails
    -- with no loop of the text left open, the bracket would close one around it
    have hlen := Brackets.length_openTails (b := d.toBrackets) text
    rw [htails, Brackets.bracketDepth_of_depthFrom htext, List.length_nil] at hlen
    subst hlen
    rw [Brackets.depthFrom_cons, Brackets.shift?_exit_zero] at hshift
    cases hshift

/-- While a closed loop is replayed it stays in the nest. -/
theorem Runs.levels_ne_nil {body text : List Char} {levels : List Level} {nest : Nest}
    (h : d.Runs ⟨⟨body, false⟩ :: levels, 0⟩ text nest) {depth : Nat} (hdepth : d.depthFrom 0 text = some depth) :
    nest.levels ≠ [] := by
  obtain ⟨skipped, -, rfl⟩ := h.inside hdepth
  simp [Dialect.inside, noteAll_closed]

/-- A balanced text that is carried out inside a closed loop leaves the nest as it was. -/
theorem runs_closed {body text : List Char} {levels : List Level} {nest : Nest}
    (h : d.Runs ⟨⟨body, false⟩ :: levels, 0⟩ text nest) (htext : d.Balanced text) :
    nest = ⟨⟨body, false⟩ :: levels, 0⟩ := by
  obtain ⟨skipped, hskipped, rfl⟩ := h.inside htext
  have hlen := Brackets.length_openTails (b := d.toBrackets) text
  rw [Brackets.bracketDepth_of_depthFrom htext] at hlen
  obtain rfl : skipped = 0 := by omega
  rw [List.length_eq_zero_iff] at hlen
  rw [Dialect.inside, hlen, noteAll_closed]
  rfl

/-! ### What is left of a failure -/

variable {τ : Type} [Tape τ]

/-- What a character that fails can leave behind: a command fails once its character is noted, and a replay fails where
one of its characters does. -/
inductive Fall (d : Dialect κ) (custom : κ → Store τ → Outcome (Store τ)) : Nest → Char → Fault → Nest → Prop where
  | act {c : Char} {fault : Fault} {s s' : Store τ} (hc : d.Acts c) (hact : d.act custom c s = .failed fault s')
    (levels : List Level) : Fall d custom ⟨levels, 0⟩ c fault ⟨note c levels, 0⟩
  | replay {text rest : List Char} {c : Char} {fault : Fault} {nest nest' : Nest} (isOpen : Bool) (levels : List Level)
    (hruns : d.Runs ⟨⟨text ++ c :: rest, false⟩ :: if isOpen then note d.exit levels else levels, 0⟩ text nest)
    (hfall : Fall d custom nest c fault nest') :
    Fall d custom ⟨⟨text ++ c :: rest, isOpen⟩ :: levels, 0⟩ d.exit fault nest'

variable {custom : κ → Store τ → Outcome (Store τ)}

theorem Fall.sound {nest nest' : Nest} {c : Char} {fault : Fault} (h : d.Fall custom nest c fault nest')
    (hs : d.Sound nest) : d.Sound nest' := by
  induction h with
  | act hc _ levels => exact SoundLevels.note_act hs hc
  | replay isOpen levels hruns _ ih => exact ih (hruns.sound hs.closed)

/-- A failure is that of a command, however deep in a replay it happened. -/
theorem Fall.exists_act {nest nest' : Nest} {c : Char} {fault : Fault} (h : d.Fall custom nest c fault nest') :
    ∃ c s s', d.Acts c ∧ d.act custom c s = .failed fault s' := by
  induction h with
  | act hc hact levels => exact ⟨_, _, _, hc, hact⟩
  | replay _ _ _ _ ih => exact ih

/-- How a character can end on a machine with the contexts of a nest. -/
inductive Leads (d : Dialect κ) (custom : κ → Store τ → Outcome (Store τ)) (nest : Nest) (c : Char) (s : Store τ) :
    Outcome (Machine τ κ) → Prop where
  | done {nest' : Nest} (h : d.Step nest c nest') (s' : Store τ) : Leads d custom nest c s (.done (d.machine nest' s'))
  | failed {fault : Fault} {nest' : Nest} (h : d.Fall custom nest c fault nest') (s' : Store τ) :
    Leads d custom nest c s (.failed fault (d.machine nest' s'))
  | unknown (h : d.Unknown nest c) : Leads d custom nest c s (.failed (.unknownCharacter c) (d.machine nest s))
  | aborted (cause : Abort) : Leads d custom nest c s (.aborted cause)

/-- How a character can end if there are loops of other kinds: as above, or with a jammed machine. -/
def LeadsOrJams (d : Dialect κ) (custom : κ → Store τ → Outcome (Store τ)) (nest : Nest) (c : Char) (s : Store τ)
    (o : Outcome (Machine τ κ)) : Prop :=
  d.Leads custom nest c s o ∨ (∃ c, d.Foreign c) ∧ Jams d.commands custom (d.Foreign c) o

/-- The characters that mean something at the root of which the loops of this dialect know nothing: they open loops of
another kind, or are a closing bracket that stands for a command as well. -/
def Outlying (d : Dialect κ) (c : Char) : Prop := d.Foreign c ∨ c = d.exit ∧ d.commands[c]? ≠ none

open Machine (onStore executeAt replayPass replay)

/-- How a replay can end: with the nest it started from, or where one of its characters fails, or where a loop of
another kind is opened. -/
private inductive Replays (d : Dialect κ) (custom : κ → Store τ → Outcome (Store τ)) (nest : Nest)
    (body : List Char) : Outcome (Machine τ κ) → Prop where
  | done (s : Store τ) : Replays d custom nest body (.done (d.machine nest s))
  | failed {text rest : List Char} {c : Char} {fault : Fault} {nest' nest'' : Nest} (hbody : body = text ++ c :: rest)
    (hruns : d.Runs nest text nest') (hfall : d.Fall custom nest' c fault nest'') (s : Store τ) :
    Replays d custom nest body (.failed fault (d.machine nest'' s))
  | aborted (cause : Abort) : Replays d custom nest body (.aborted cause)
  | jammed {o : Outcome (Machine τ κ)} (hforeign : ∃ c, d.Foreign c) (h : Jams d.commands custom False o) :
    Replays d custom nest body o

/-- A pass that opens a loop of another kind does not come to its end: the bracket that closes the loop around is still
to come. -/
private theorem jams_rest (hexits : d.commands.ExitsApart) {fuel : Nat} {body text rest : List Char} {c : Char}
    {o : Outcome (Machine τ κ)} (hbody : d.Spells 0 body) (heq : body = text ++ c :: rest)
    (h : Jams d.commands custom (d.Foreign c) o) :
    Jams d.commands custom False (o.andThen (replayPass (executeAt (onStore custom) fuel) rest)) := by
  refine h.andThen fun hc tower s h => h.replayPass hexits ⟨d.exit, ?_, hexits.unbound d.enter_bound⟩ fuel s
  have hdepth := hbody.depth
  rw [heq] at hdepth
  obtain ⟨depth, htext, hdepth⟩ := Brackets.depthFrom_of_append hdepth
  have hpos : depth ≠ 0 := by
    rintro rfl
    exact hbody.inside text c rest heq hc htext
  rcases List.mem_cons.1 (Brackets.exit_mem_of_depthFrom hdepth (Nat.pos_of_ne_zero hpos)) with hexit | hexit
  · exact absurd hexit.symm hc.2.1
  · exact hexit

section

variable (hexits : (∃ c, d.Foreign c) → d.commands.ExitsApart) {fuel : Nat}
  (hexecute : ∀ nest c s, d.Sound nest → (d.Outlying c → nest ≠ ⟨[], 0⟩) →
    d.LeadsOrJams custom nest c s (executeAt (onStore custom) fuel (topIndex nest) c (d.machine nest s)))

include hexits hexecute

/-- One pass, of which `text` is done and `rest` is to come. -/
private theorem replayPass_replays {levels : List Level} {body : List Char}
    (hs : d.Sound ⟨⟨body, false⟩ :: levels, 0⟩) (text rest : List Char) (hbody : body = text ++ rest) (nest : Nest)
    (hruns : d.Runs ⟨⟨body, false⟩ :: levels, 0⟩ text nest) (s : Store τ) :
    Replays d custom ⟨⟨body, false⟩ :: levels, 0⟩ body
      (replayPass (executeAt (onStore custom) fuel) rest (d.machine nest s)) := by
  induction rest generalizing text nest s with
  | nil =>
    rw [List.append_nil] at hbody
    subst hbody
    rw [runs_closed hruns hs.1.1]
    exact .done s
  | cons c rest ih =>
    have hc : d.Knows c := hs.1.2 c (by simp [hbody])
    have hdepth := hs.1.1
    rw [hbody] at hdepth
    obtain ⟨depth, hdepth, -⟩ := Brackets.depthFrom_of_append hdepth
    have hlevels := hruns.levels_ne_nil hdepth
    have hleads := hexecute nest c s (hruns.sound hs) fun _ hroot => hlevels (by rw [hroot])
    rw [replayPass_machine]
    generalize executeAt (onStore custom) fuel (topIndex nest) c (d.machine nest s) = outcome at hleads ⊢
    rcases hleads with hleads | ⟨hforeign, hjams⟩
    · cases hleads with
      | done h s' => exact ih (text ++ [c]) (by simp [hbody]) _ (hruns.concat h) s'
      | failed h s' => exact .failed hbody hruns h s'
      | unknown h =>
        rcases h with h | ⟨-, -, h, -⟩
        · exact absurd hc h
        · exact absurd h hlevels
      | aborted cause => exact .aborted cause
    · exact .jammed hforeign (jams_rest (hexits hforeign) hs.1 hbody hjams)

private theorem replay_replays (passes : Nat) {levels : List Level} {body : List Char}
    (hs : d.Sound ⟨⟨body, false⟩ :: levels, 0⟩) (s : Store τ) :
    Replays d custom ⟨⟨body, false⟩ :: levels, 0⟩ body
      (replay (executeAt (onStore custom) fuel) body passes (d.machine ⟨⟨body, false⟩ :: levels, 0⟩ s)) := by
  induction passes generalizing s with
  | zero => exact .aborted _
  | succ passes ih =>
    rw [machine, Machine.replay_ofTower]
    cases s.guard? with
    | none => exact .aborted _
    | some read =>
      obtain ⟨value, s⟩ := read
      by_cases hv : value = 0
      · simp only [hv, if_true]
        exact .done s
      · simp only [if_neg hv]
        have hpass := replayPass_replays hexits hexecute hs [] body rfl _ (.refl _) s
        rw [machine] at hpass
        generalize replayPass (executeAt (onStore custom) fuel) body _ = outcome at hpass ⊢
        cases hpass with
        | done s' => exact ih s'
        | failed hbody hruns hfall s' => exact .failed hbody hruns hfall s'
        | aborted cause => exact .aborted cause
        | jammed hforeign hjams => exact .jammed hforeign (hjams.andThen False.elim)

private theorem leads_exit (body : List Char) (isOpen : Bool) (levels : List Level) (s : Store τ)
    (hs : d.Sound ⟨⟨body, isOpen⟩ :: levels, 0⟩) :
    d.LeadsOrJams custom ⟨⟨body, isOpen⟩ :: levels, 0⟩ d.exit s
      (executeAt (onStore custom) (fuel + 1) (levels.length + 1) d.exit
        (d.machine ⟨⟨body, isOpen⟩ :: levels, 0⟩ s)) := by
  rcases executeAt_exit_or custom body isOpen levels fuel s with hout | hreplay
  · rw [hout]
    exact .inl (.aborted _)
  rw [hreplay]
  have hreplays := replay_replays hexits hexecute fuel hs.closed s
  generalize replay (executeAt (onStore custom) fuel) body fuel _ = outcome at hreplays ⊢
  cases hreplays with
  | done s' =>
    rw [Outcome.done_andThen, machine, contexts_levels, tower, Machine.popContext_ofTower]
    exact .inl (.done (.exit body isOpen levels) s')
  | failed hbody hruns hfall s' =>
    subst hbody
    exact .inl (.failed (.replay isOpen levels hruns hfall) s')
  | aborted cause => exact .inl (.aborted cause)
  | jammed hforeign hjams => exact .inr ⟨hforeign, hjams.andThen False.elim⟩

end

private theorem leads_of_more {fuel : Nat} {nest : Nest} {c : Char} {s : Store τ} (index more : Nat)
    (h : d.LeadsOrJams custom nest c s (executeAt (onStore custom) (fuel + more) index c (d.machine nest s))) :
    d.LeadsOrJams custom nest c s (executeAt (onStore custom) fuel index c (d.machine nest s)) := by
  by_cases hout : executeAt (onStore custom) fuel index c (d.machine nest s) = .aborted .outOfFuel
  · rw [hout]
    exact .inl (.aborted _)
  · rwa [Machine.executeAt_extends (onStore custom) (Nat.le_add_right fuel more) index c _ hout] at h

omit [Tape τ] in
private theorem scope_eq_parentOver (levels : List Level) : scope levels = parentOver (d.tower levels) := by
  rw [scope_eq, parentOver, length_tower, Nat.add_sub_cancel]
  simp

theorem stacked_tower (hexit : d.commands[d.exit]? = none) (levels : List Level) :
    Stacked d.commands (d.tower levels) := by
  induction levels with
  | nil => exact .root
  | cons level levels ih => exact .recording rfl hexit (scope_eq_parentOver levels) ih

/-- A loop that is opened inside one of another kind jams the machine. -/
private theorem jams_foreign (hexits : d.commands.ExitsApart) {c : Char} (hc : d.Foreign c) (level : Level)
    (levels : List Level) {fuel : Nat} (hfuel : levels.length + 1 ≤ fuel) (s : Store τ) :
    Jams d.commands custom (d.Foreign c)
      (executeAt (onStore custom) (fuel + 1) (levels.length + 1) c (d.machine ⟨level :: levels, 0⟩ s)) := by
  obtain ⟨hn, hx, x, hloop⟩ := id hc
  have hexit := hexits.unbound d.enter_bound
  have hstacked := d.stacked_tower hexit (note c (level :: levels))
  have hne : x ≠ d.exit := by
    rintro rfl
    exact hn (hexits.unique hloop d.enter_bound)
  have hcommand := executeAt_command custom hx hloop (level :: levels) hfuel s
  rw [List.length_cons, Machine.invoke, ← scope_note c, scope_eq_parentOver] at hcommand
  rw [hcommand]
  rcases hstacked.enterLoop hexits hloop s with ⟨context, s', henter, hcontext, hreached⟩ | haborted
  · rw [machine, contexts_levels, henter]
    refine .done hc ⟨hcontext, x, ?_, d.exit, ?_, hne⟩ s'
    · rw [hreached]
      exact List.mem_cons_self
    · rw [hreached]
      refine List.mem_cons_of_mem x ?_
      unfold note
      split <;> exact List.mem_cons_self
  · rw [machine, contexts_levels, haborted]
    exact .aborted _

/-- On a machine with the contexts of a sound nest a character does one of the things listed above, or jams the machine.
The root is none of this dialect's business if the character is outlying. -/
theorem executeAt_leads_or_jams (hexits : (∃ c, d.Foreign c) → d.commands.ExitsApart) (fuel : Nat) {nest : Nest}
    (c : Char) (s : Store τ) (hs : d.Sound nest) (hroot : d.Outlying c → nest ≠ ⟨[], 0⟩) :
    d.LeadsOrJams custom nest c s (executeAt (onStore custom) fuel (topIndex nest) c (d.machine nest s)) := by
  induction fuel generalizing nest c s with
  | zero => exact .inl (.aborted _)
  | succ fuel ih =>
    by_cases hunknown : d.Unknown nest c
    · rw [executeAt_unknown custom hunknown]
      exact .inl (.unknown hunknown)
    have hc : d.Knows c := not_not.1 fun h => hunknown (.inl h)
    obtain ⟨levels, skipped⟩ := nest
    have henough : levels.length ≤ fuel + levels.length := Nat.le_add_left _ _
    cases skipped with
    | succ depth =>
      apply leads_of_more _ levels.length
      rw [Nat.add_right_comm, topIndex, if_neg (Nat.succ_ne_zero depth),
        executeAt_skipped custom hc levels depth henough]
      refine .inl (.done ?_ s)
      rcases knows_iff.1 hc with rfl | rfl | hacts | hforeign
      · rw [if_pos rfl]
        exact .skip levels (depth + 1)
      · rw [if_neg d.distinct, if_pos rfl]
        exact .unskip levels depth
      · rw [if_neg (ne_enter_of_acts hacts), if_neg (ne_exit_of_acts hacts)]
        exact .act hacts levels (depth + 1)
      · rw [if_neg hforeign.1, if_neg hforeign.2.1]
        exact .pass hforeign levels depth
    | zero =>
      rcases knows_iff.1 hc with rfl | rfl | hacts | hforeign
      · apply leads_of_more _ levels.length
        rw [Nat.add_right_comm, topIndex, if_pos rfl, executeAt_enter custom levels henough]
        cases s.guard? with
        | none => exact .inl (.aborted _)
        | some read =>
          obtain ⟨value, s'⟩ := read
          refine .inl (.done ?_ s')
          split
          · exact .skip levels 0
          · exact .enter levels
      · -- more fuel would not help here: the replay is the one step that uses it up
        cases levels with
        | nil =>
          have hbound : d.commands[d.exit]? ≠ none := fun hnone => hunknown (.inr ⟨rfl, hnone, rfl, rfl⟩)
          exact absurd rfl (hroot (.inr ⟨rfl, hbound⟩))
        | cons level levels =>
          exact leads_exit hexits (fun _ c s hs hroot => ih c s hs hroot) level.body level.isOpen levels s hs
      · apply leads_of_more _ levels.length
        rw [Nat.add_right_comm, topIndex, if_pos rfl, executeAt_act custom hacts levels henough]
        cases hact : d.act custom c s with
        | done s' => exact .inl (.done (.act hacts levels 0) s')
        | failed fault s' => exact .inl (.failed (.act hacts hact levels) s')
        | aborted cause => exact .inl (.aborted cause)
      · cases levels with
        | nil => exact absurd rfl (hroot (.inl hforeign))
        | cons level levels =>
          apply leads_of_more _ (level :: levels).length
          rw [Nat.add_right_comm, topIndex, if_pos rfl]
          exact .inr ⟨⟨c, hforeign⟩, jams_foreign (hexits ⟨c, hforeign⟩) hforeign level levels henough s⟩

theorem exitsApart [d.Sole] (hexit : d.commands[d.exit]? = none) : d.commands.ExitsApart := by
  have henter {c x : Char} (h : d.commands[c]? = some (.enterLoop x)) : c = d.enter := Sole.enter_of_loop c x h
  constructor
  · intro c x h
    obtain rfl := henter h
    rw [d.enter_bound] at h
    cases h
    exact hexit
  · intro c c' x h h'
    rw [henter h, henter h']

/-- With loops of one kind only no machine is jammed, and only a bracket that closes nothing can be outlying. -/
theorem executeAt_leads_of_root [d.Sole] (fuel : Nat) {nest : Nest} (c : Char) (s : Store τ) (hs : d.Sound nest)
    (hroot : nest = ⟨[], 0⟩ → c = d.exit → d.commands[c]? = none) :
    d.Leads custom nest c s (executeAt (onStore custom) fuel (topIndex nest) c (d.machine nest s)) := by
  have hforeign : ¬∃ c, d.Foreign c := fun ⟨c, hc⟩ => not_foreign c hc
  have houtlying : d.Outlying c → nest ≠ ⟨[], 0⟩ := by
    rintro (hc | ⟨hc, hbound⟩) hnest
    · exact not_foreign c hc
    · exact hbound (hroot hnest hc)
  rcases executeAt_leads_or_jams (absurd · hforeign) fuel c s hs houtlying with hleads | ⟨hjams, -⟩
  · exact hleads
  · exact absurd hjams hforeign

/-- With loops of one kind only, and a closing bracket that means nothing outside a loop, no character is outlying. -/
theorem executeAt_leads [d.Sole] (hexit : d.commands[d.exit]? = none) (fuel : Nat) {nest : Nest} (c : Char)
    (s : Store τ) (hs : d.Sound nest) :
    d.Leads custom nest c s (executeAt (onStore custom) fuel (topIndex nest) c (d.machine nest s)) :=
  executeAt_leads_of_root fuel c s hs fun _ hc => hc ▸ hexit

end TapeMachine.Dialect
