import TapeMachine.Proofs.Store

/-!
# Jammed machines

A character that closes a loop is passed on to the loops around it before the loop is closed, and a loop of another kind
refuses it.  A machine in which loops of two kinds are in the way of a character is therefore `Jammed`: none of its
loops can be closed, and it stays jammed whatever it is given (`Jammed.executeAt`).

* `Stacked` is the shape of the contexts that a program can build: loops over one mapping, each of which passes its
  characters on to the one below it.
* `reached` are the loops that a character meets on its way down.  `forward_passes` says that the way down is all
  recording: the character is taken down until a loop refuses it, and nothing else happens.
-/

namespace TapeMachine

variable {τ κ : Type}

/-- The characters that close loops stand for nothing else, and each of them closes loops of one kind. -/
structure CommandMap.ExitsApart (commands : CommandMap κ) : Prop where
  unbound {c x : Char} (h : commands[c]? = some (.enterLoop x)) : commands[x]? = none
  unique {c c' x : Char} (h : commands[c]? = some (.enterLoop x)) (h' : commands[c']? = some (.enterLoop x)) : c = c'

/-! ### The way down -/

/-- The context that a loop over `below` passes its characters on to: the loop below it, if there is one. -/
def parentOver (below : List (Context κ)) : Option Nat := if below.length = 1 then none else some (below.length - 1)

/-- Loops over a program with the mapping `commands`, the innermost first. -/
inductive Stacked (commands : CommandMap κ) : List (Context κ) → Prop where
  | root : Stacked commands [.plain commands]
  | recording {r : Recording κ} {below : List (Context κ)} (hcommands : r.commands = commands)
    (hexit : commands[r.exit]? = none) (hparent : r.parent = parentOver below) (hbelow : Stacked commands below) :
    Stacked commands (.recording r :: below)
  | skip {skip : Skip κ} {below : List (Context κ)} (hcommands : skip.commands = commands)
    (henter : ∃ command, commands[skip.enter]? = some command) (hexit : commands[skip.exit]? = none)
    (hdepth : skip.depth ≠ 0) (hparent : skip.parent = parentOver below) (hbelow : Stacked commands below) :
    Stacked commands (.skip skip :: below)

/-- The characters that close the loops which a character meets on its way down.  A closed recording passes nothing
on. -/
def reached : List (Context κ) → List Char
  | .recording r :: below => r.exit :: if r.isOpen then reached below else []
  | .skip skip :: below => skip.exit :: reached below
  | _ => []

namespace Stacked

variable {commands : CommandMap κ} {tower below : List (Context κ)}

theorem exists_eq_concat (h : Stacked commands tower) : ∃ loops, tower = loops ++ [.plain commands] := by
  induction h with
  | root => exact ⟨[], rfl⟩
  | recording _ _ _ _ ih | skip _ _ _ _ _ _ ih =>
    obtain ⟨loops, rfl⟩ := ih
    exact ⟨_ :: loops, rfl⟩

theorem length_pos (h : Stacked commands tower) : 0 < tower.length := by
  obtain ⟨loops, rfl⟩ := h.exists_eq_concat
  simp

theorem parentOver_cons (h : Stacked commands below) (context : Context κ) :
    parentOver (context :: below) = some below.length := by
  have hpos := h.length_pos
  rw [parentOver, List.length_cons, if_neg (by omega), Nat.add_sub_cancel]

end Stacked

/-- Contexts that are as before, but for what they have recorded. -/
structure AsBefore (commands : CommandMap κ) (below below' : List (Context κ)) : Prop where
  stacked : Stacked commands below'
  length : below'.length = below.length
  reached : reached below' = reached below

/-- How a character can end that was passed on to the contexts of `below`. -/
inductive Passes (commands : CommandMap κ) (c : Char) (above below : List (Context κ)) (s : Store τ) :
    Outcome (Machine τ κ) → Prop where
  | done {below' : List (Context κ)} (h : AsBefore commands below below')
    (hknown : commands[c]? = none → ∀ x ∈ reached below, x = c) :
    Passes commands c above below s (.done (.ofTower (above ++ below') s))
  | refused {below' : List (Context κ)} (h : AsBefore commands below below') (hunbound : commands[c]? = none) :
    Passes commands c above below s (.failed (.unknownCharacter c) (.ofTower (above ++ below') s))
  | outOfFuel : Passes commands c above below s (.aborted .outOfFuel)

section

variable {commands : CommandMap κ} {above below : List (Context κ)} {s : Store τ} {c : Char}

open Machine (ofTower)

theorem AsBefore.refl (h : Stacked commands below) : AsBefore commands below below := ⟨h, rfl, rfl⟩

theorem AsBefore.parentOver {below' : List (Context κ)} (h : AsBefore commands below below') :
    parentOver below' = parentOver below := by
  rw [TapeMachine.parentOver, TapeMachine.parentOver, h.length]

private theorem save_eq (r : Recording κ) (c : Char) :
    (r.save c).commands = r.commands ∧ (r.save c).exit = r.exit ∧ (r.save c).parent = r.parent ∧
      (r.save c).isOpen = r.isOpen := by
  unfold Recording.save
  split <;> exact ⟨rfl, rfl, rfl, rfl⟩

/-- A recording that has saved a character stands over contexts that are as before. -/
private theorem AsBefore.recording {r : Recording κ} {below' : List (Context κ)} (h : AsBefore commands below below')
    (hr : Stacked commands (.recording r :: below)) (c : Char) :
    AsBefore commands (.recording r :: below) (.recording (r.save c) :: below') := by
  obtain ⟨hsaved, hexit', hparent', hopen⟩ := save_eq r c
  cases hr with
  | recording hcommands hexit hparent hbelow =>
    refine ⟨.recording ?_ ?_ ?_ h.stacked, ?_, ?_⟩
    · rw [hsaved, hcommands]
    · rw [hexit', hexit]
    · rw [hparent', hparent, h.parentOver]
    · rw [List.length_cons, List.length_cons, h.length]
    · rw [TapeMachine.reached, TapeMachine.reached, hexit', hopen, h.reached]

private theorem AsBefore.skip {skip : Skip κ} {below' : List (Context κ)} (h : AsBefore commands below below')
    (hskip : Stacked commands (.skip skip :: below)) :
    AsBefore commands (.skip skip :: below) (.skip skip :: below') := by
  cases hskip with
  | skip hcommands henter hexit hdepth hparent hbelow =>
    refine ⟨.skip hcommands henter hexit hdepth (by rw [hparent, h.parentOver]) h.stacked, ?_, ?_⟩
    · rw [List.length_cons, List.length_cons, h.length]
    · rw [TapeMachine.reached, TapeMachine.reached, h.reached]

private theorem exit_eq_of_effect {r : Recording κ} {effect} (h : r.effect? c = some effect)
    (hunbound : r.commands[c]? = none) : r.exit = c := by
  by_contra hne
  rw [Recording.effect?_eq_none_iff.2 ⟨Ne.symm hne, hunbound⟩] at h
  cases h

/-- The character that opens a loop is bound, so that a skip context knows what a recording of its loop knows. -/
private theorem recognizes_iff_of_skip {skip : Skip κ} (hcommands : skip.commands = commands)
    (henter : ∃ command, commands[skip.enter]? = some command) :
    skip.recognizes c ↔ skip.exit = c ∨ commands[c]? ≠ none := by
  rw [Skip.recognizes_iff, hcommands]
  constructor
  · rintro (rfl | hx | hc)
    · obtain ⟨command, hcommand⟩ := henter
      exact .inr (by simp [hcommand])
    · exact .inl hx.symm
    · exact .inr hc
  · rintro (hx | hc)
    · exact .inr (.inl hx.symm)
    · exact .inr (.inr hc)

/-- A character that passes the contexts below a context has passed that one too. -/
private theorem Passes.under {context context' : Context κ} {o : Outcome (Machine τ κ)}
    (h : Passes commands c (above ++ [context']) below s o)
    (hcontext : ∀ {below'}, AsBefore commands below below' →
      AsBefore commands (context :: below) (context' :: below'))
    (hknown : commands[c]? = none → (∀ x ∈ reached below, x = c) → ∀ x ∈ reached (context :: below), x = c) :
    Passes commands c above (context :: below) s o := by
  cases h with
  | done h hreached =>
    rw [List.append_assoc]
    exact .done (hcontext h) fun hunbound => hknown hunbound (hreached hunbound)
  | refused h hunbound =>
    rw [List.append_assoc]
    exact .refused (hcontext h) hunbound
  | outOfFuel => exact .outOfFuel

variable [Tape τ] (host : κ → Machine τ κ → Outcome (Machine τ κ))

/-- On its way down a character is recorded until a loop refuses it, and nothing else happens. -/
theorem forward_passes (h : Stacked commands below) (fuel : Nat) (above : List (Context κ)) (habove : above ≠ []) :
    Passes commands c above below s
      ((ofTower (above ++ below) s).forward (Machine.executeAt host fuel) (parentOver below) c) := by
  induction h generalizing fuel above with
  | root => exact .done (.refl .root) (by simp [reached])
  | @recording r below hcommands hexit hparent hbelow ih =>
    rw [hbelow.parentOver_cons]
    cases fuel with
    | zero => exact .outOfFuel
    | succ fuel =>
      have hr := Stacked.recording hcommands hexit hparent hbelow
      have hget := Machine.get?_ofTower above (.recording r) below s
      have htop := Machine.topIndex?_above habove (.recording r) below s
      rw [Machine.forward]
      cases heffect : r.effect? c with
      | none =>
        rw [Machine.executeAt_recording_unknown hget heffect]
        rw [Recording.effect?_eq_none_iff, hcommands] at heffect
        exact .refused (.refl hr) heffect.2
      | some effect =>
        have hc := exit_eq_of_effect heffect
        rw [hcommands] at hc
        rw [Machine.executeAt_recording_below hget htop heffect, Machine.saveAt_ofTower, Recording.forward?]
        cases hopen : r.isOpen with
        | false =>
          refine .done ((AsBefore.refl hbelow).recording hr c) fun hunbound => ?_
          simpa [reached, hopen] using hc hunbound
        | true =>
          have hpasses := ih fuel (above ++ [.recording (r.save c)]) (by simp)
          rw [if_pos rfl, hparent, List.append_cons]
          refine hpasses.under (fun h => h.recording hr c) fun hunbound hknown => ?_
          simpa [reached, hopen] using ⟨hc hunbound, hknown⟩
  | @skip skip below hcommands henter hexit hdepth hparent hbelow ih =>
    rw [hbelow.parentOver_cons]
    cases fuel with
    | zero => exact .outOfFuel
    | succ fuel =>
      have hskip := Stacked.skip hcommands henter hexit hdepth hparent hbelow
      have hget := Machine.get?_ofTower above (.skip skip) below s
      have htop := Machine.topIndex?_above habove (.skip skip) below s
      have hrecognizes := recognizes_iff_of_skip (c := c) hcommands henter
      rw [Machine.forward]
      by_cases hc : skip.recognizes c
      · have hpasses := ih fuel (above ++ [.skip skip]) (by simp)
        rw [Machine.executeAt_skip_below hget htop hc, hparent, List.append_cons]
        refine hpasses.under (fun h => h.skip hskip) fun hunbound hknown => ?_
        have hx := (hrecognizes.1 hc).resolve_right (not_not.2 hunbound)
        simpa [reached] using ⟨hx, hknown⟩
      · rw [Machine.executeAt_skip_unknown hget hc]
        rw [hrecognizes, not_or, not_not] at hc
        exact .refused (.refl hskip) hc.2

end

/-! ### Loops that cannot be closed -/

/-- Loops of two kinds are in the way of a character, so that none of them can be closed. -/
structure Jammed (commands : CommandMap κ) (tower : List (Context κ)) : Prop where
  stacked : Stacked commands tower
  torn : ∃ x ∈ reached tower, ∃ y ∈ reached tower, x ≠ y

variable [Tape τ]

/-- How a run can end on a jammed machine: it stays jammed.  It can be done only if `passable`. -/
inductive Jams (commands : CommandMap κ) (custom : κ → Store τ → Outcome (Store τ)) (passable : Prop) :
    Outcome (Machine τ κ) → Prop where
  | done (hpassable : passable) {tower : List (Context κ)} (h : Jammed commands tower) (s : Store τ) :
    Jams commands custom passable (.done (.ofTower tower s))
  | refused (c : Char) {tower : List (Context κ)} (h : Jammed commands tower) (s : Store τ) :
    Jams commands custom passable (.failed (.unknownCharacter c) (.ofTower tower s))
  | failed {command : Command κ} (hloop : ∀ x, command ≠ .enterLoop x) {fault : Fault} {s s' : Store τ}
    (hperform : s.perform custom command = .failed fault s') {tower : List (Context κ)} (h : Jammed commands tower) :
    Jams commands custom passable (.failed fault (.ofTower tower s'))
  | aborted (cause : Abort) : Jams commands custom passable (.aborted cause)

section

variable {commands : CommandMap κ} {custom : κ → Store τ → Outcome (Store τ)} {c : Char} {passable : Prop}
  {tower below : List (Context κ)} {s : Store τ}

open Machine (ofTower onStore)

omit [Tape τ] in
theorem Jammed.congr {tower' : List (Context κ)} (h : Jammed commands tower)
    (hbefore : AsBefore commands tower tower') :
    Jammed commands tower' :=
  ⟨hbefore.stacked, by rw [hbefore.reached]; exact h.torn⟩

omit [Tape τ] in
/-- A loop that is opened on a jammed machine is in the way too. -/
theorem Jammed.push {context : Context κ} (h : Jammed commands tower) (hcontext : Stacked commands (context :: tower))
    (hreached : ∃ x, reached (context :: tower) = x :: reached tower) : Jammed commands (context :: tower) := by
  obtain ⟨x, hreached⟩ := hreached
  obtain ⟨y, hy, z, hz, hne⟩ := h.torn
  refine ⟨hcontext, y, ?_, z, ?_, hne⟩
  · rw [hreached]
    exact List.mem_cons_of_mem x hy
  · rw [hreached]
    exact List.mem_cons_of_mem x hz

omit [Tape τ] in
theorem Stacked.commands_eq {context : Context κ} (h : Stacked commands (context :: below)) :
    context.commands = commands := by
  cases h with
  | root => rfl
  | recording hcommands => exact hcommands
  | skip hcommands => exact hcommands

/-- A loop that is opened over `tower` is skipped or recorded. -/
theorem Stacked.enterLoop (hexits : commands.ExitsApart) {x : Char} (hc : commands[c]? = some (.enterLoop x))
    (h : Stacked commands tower) (s : Store τ) :
    (∃ context s', (ofTower tower s).enterLoop c x (parentOver tower) = .done (ofTower (context :: tower) s') ∧
      Stacked commands (context :: tower) ∧ reached (context :: tower) = x :: reached tower) ∨
    (ofTower tower s).enterLoop c x (parentOver tower) = .aborted .noCell := by
  have hexit := hexits.unbound hc
  obtain ⟨top, below, rfl⟩ := List.exists_cons_of_length_pos h.length_pos
  rw [Machine.enterLoop_ofTower, h.commands_eq]
  cases s.guard? with
  | none => exact .inr rfl
  | some read =>
    obtain ⟨value, s'⟩ := read
    left
    by_cases hv : value = 0
    · simp only [hv, if_true]
      exact ⟨_, s', rfl, .skip rfl ⟨_, hc⟩ hexit (by simp) rfl h, rfl⟩
    · simp only [if_neg hv]
      exact ⟨_, s', rfl, .recording rfl hexit rfl h, rfl⟩

omit [Tape τ] in
private theorem Jammed.not_forall (h : Jammed commands tower) (c : Char) : ¬∀ x ∈ reached tower, x = c := by
  obtain ⟨x, hx, y, hy, hne⟩ := h.torn
  intro hall
  exact hne ((hall x hx).trans (hall y hy).symm)

/-- A command on a jammed machine. -/
private theorem Jammed.invoke (hexits : commands.ExitsApart) (h : Jammed commands tower) {command : Command κ}
    (hc : commands[c]? = some command) (s : Store τ) :
    Jams commands custom (commands[c]? ≠ none)
      ((ofTower tower s).invoke (onStore custom) command c (parentOver tower)) := by
  have hbound : commands[c]? ≠ none := by simp [hc]
  by_cases hloop : ∃ x, command = .enterLoop x
  · obtain ⟨x, rfl⟩ := hloop
    rcases h.stacked.enterLoop hexits hc s with ⟨context, s', henter, hcontext, hreached⟩ | haborted
    · rw [Machine.invoke, henter]
      exact .done hbound (h.push hcontext ⟨x, hreached⟩) s'
    · rw [Machine.invoke, haborted]
      exact .aborted _
  · rw [not_exists] at hloop
    rw [Machine.invoke_ofTower custom hloop]
    cases hperform : s.perform custom command with
    | done s' => exact .done hbound h s'
    | failed fault s' => exact .failed hloop hperform h
    | aborted cause => exact .aborted cause

private theorem Jammed.executeAt_recording (hexits : commands.ExitsApart) {r : Recording κ}
    (h : Jammed commands (.recording r :: below)) (fuel : Nat) (c : Char) (s : Store τ) :
    Jams commands custom (commands[c]? ≠ none)
      (Machine.executeAt (onStore custom) (fuel + 1) below.length c (ofTower (.recording r :: below) s)) := by
  have hget := Machine.get?_ofTower_top (.recording r) below s
  have htop := Machine.topIndex?_ofTower (.recording r) below s
  have hopen : r.isOpen = true := by
    by_contra hclosed
    exact h.not_forall r.exit (by simp [reached, hclosed])
  cases h.stacked with
  | recording hcommands hexit hparent hbelow =>
    have hsave := Machine.saveAt_ofTower [] r below c s
    rw [List.nil_append, List.nil_append] at hsave
    have hforward : r.forward? = parentOver below := by rw [Recording.forward?, if_pos hopen, hparent]
    have hpasses : Passes commands c [.recording (r.save c)] below s _ :=
      forward_passes (onStore custom) hbelow fuel [.recording (r.save c)] (by simp)
    rw [List.singleton_append] at hpasses
    cases heffect : r.effect? c with
    | none =>
      rw [Machine.executeAt_recording_unknown hget heffect]
      exact .refused c h s
    | some effect =>
      cases effect with
      | replay =>
        -- the bracket is refused on the way down, before the loop can be closed
        rw [Machine.executeAt_recording_replay hget htop heffect, hsave, hforward]
        generalize Machine.forward _ _ _ _ = outcome at hpasses ⊢
        obtain rfl := Recording.effect?_eq_replay_iff.1 heffect
        cases hpasses with
        | done _ hknown =>
          refine absurd ?_ (h.not_forall r.exit)
          simpa [reached, hopen] using hknown hexit
        | refused hbefore => exact .refused _ (h.congr (hbefore.recording h.stacked _)) s
        | outOfFuel => exact .aborted _
      | invoke command =>
        have hcommand := (Recording.effect?_eq_invoke_iff.1 heffect).2
        rw [hcommands] at hcommand
        rw [Machine.executeAt_recording_invoke hget htop heffect, hsave, hforward]
        generalize Machine.forward _ _ _ _ = outcome at hpasses ⊢
        cases hpasses with
        | done hbefore =>
          have hjammed := h.congr (hbefore.recording h.stacked c)
          have hinvoke : Jams commands custom _ _ := hjammed.invoke hexits hcommand s
          rw [hbefore.stacked.parentOver_cons, hbefore.length] at hinvoke
          exact hinvoke
        | refused hbefore => exact .refused c (h.congr (hbefore.recording h.stacked c)) s
        | outOfFuel => exact .aborted _

omit [Tape τ] in
/-- Until its loop is closed a skip context keeps counting. -/
private theorem Jammed.exists_count {skip : Skip κ} (h : Jammed commands (.skip skip :: below)) {c : Char}
    (hc : c ≠ skip.exit) :
    ∃ counted, skip.count? c = some counted ∧ counted.isOver = false ∧ Jammed commands (.skip counted :: below) := by
  cases h.stacked with
  | skip hcommands henter hexit hdepth hparent hbelow =>
    by_cases hn : c = skip.enter
    · refine ⟨{ skip with depth := skip.depth + 1 }, by rw [Skip.count?, if_pos hn], rfl, ?_⟩
      exact ⟨.skip hcommands henter hexit (Nat.succ_ne_zero _) hparent hbelow, h.torn⟩
    · exact ⟨skip, by rw [Skip.count?, if_neg hn, if_neg hc], by simpa [Skip.isOver] using hdepth, h⟩

private theorem Jammed.executeAt_skip {skip : Skip κ} (h : Jammed commands (.skip skip :: below)) (fuel : Nat)
    (c : Char) (s : Store τ) :
    Jams commands custom (commands[c]? ≠ none)
      (Machine.executeAt (onStore custom) (fuel + 1) below.length c (ofTower (.skip skip :: below) s)) := by
  have hget := Machine.get?_ofTower_top (.skip skip) below s
  have htop := Machine.topIndex?_ofTower (.skip skip) below s
  cases h.stacked with
  | skip hcommands henter hexit hdepth hparent hbelow =>
    have hpasses : Passes commands c [.skip skip] below s _ :=
      forward_passes (onStore custom) hbelow fuel [.skip skip] (by simp)
    rw [List.singleton_append] at hpasses
    by_cases hc : skip.recognizes c
    · rw [Machine.executeAt_skip hget htop hc, hparent]
      generalize Machine.forward _ _ _ _ = outcome at hpasses ⊢
      cases hpasses with
      | @done below' hbefore hknown =>
        have hx : c ≠ skip.exit := by
          rintro rfl
          refine h.not_forall skip.exit ?_
          simpa [reached] using hknown hexit
        have hbound := ((recognizes_iff_of_skip hcommands henter).1 hc).resolve_left hx.symm
        obtain ⟨counted, hcount, hover, hjammed⟩ := (h.congr (hbefore.skip h.stacked)).exists_count hx
        rw [Outcome.done_andThen, List.singleton_append, ← hbefore.length, Machine.countAt_ofTower hcount, hover]
        exact .done hbound hjammed s
      | refused hbefore => exact .refused c (h.congr (hbefore.skip h.stacked)) s
      | outOfFuel => exact .aborted _
    · rw [Machine.executeAt_skip_unknown hget hc]
      exact .refused c h s

/-- A jammed machine stays jammed, and refuses every character that stands for nothing outside a loop. -/
theorem Jammed.executeAt (hexits : commands.ExitsApart) (h : Jammed commands tower) (fuel : Nat) (c : Char)
    (s : Store τ) :
    Jams commands custom (commands[c]? ≠ none)
      (Machine.executeAt (onStore custom) fuel (tower.length - 1) c (ofTower tower s)) := by
  cases fuel with
  | zero => exact .aborted _
  | succ fuel =>
    cases h.stacked with
    | root => exact absurd (by simp [reached]) (h.not_forall c)
    | recording => exact h.executeAt_recording hexits fuel c s
    | skip => exact h.executeAt_skip fuel c s

/-- What follows on a jammed machine matters only if the run can get that far. -/
theorem Jams.andThen {passable' : Prop} {o : Outcome (Machine τ κ)} {next : Machine τ κ → Outcome (Machine τ κ)}
    (h : Jams commands custom passable o)
    (hnext : passable → ∀ tower s, Jammed commands tower → Jams commands custom passable' (next (ofTower tower s))) :
    Jams commands custom passable' (o.andThen next) := by
  cases h with
  | done hpassable h s => exact hnext hpassable _ s h
  | refused c h s => exact .refused c h s
  | failed hloop hperform h => exact .failed hloop hperform h
  | aborted cause => exact .aborted cause

omit [Tape τ] in
theorem Stacked.topIndex? (h : Stacked commands tower) (s : Store τ) :
    (ofTower tower s).stack.topIndex? = some (tower.length - 1) := by
  obtain ⟨top, below, rfl⟩ := List.exists_cons_of_length_pos h.length_pos
  exact Machine.topIndex?_ofTower top below s

/-- A text with a character that stands for nothing outside a loop does not get past a jammed machine. -/
theorem Jammed.replayPass (hexits : commands.ExitsApart) (h : Jammed commands tower) {text : List Char}
    (htext : ∃ c ∈ text, commands[c]? = none) (fuel : Nat) (s : Store τ) :
    Jams commands custom False
      (Machine.replayPass (Machine.executeAt (onStore custom) fuel) text (ofTower tower s)) := by
  induction text generalizing tower s with
  | nil => simp at htext
  | cons c rest ih =>
    have hc : Jams commands custom _ _ := h.executeAt hexits fuel c s
    simp only [Machine.replayPass, h.stacked.topIndex? s]
    refine hc.andThen fun hbound tower' s' h' => ih h' ?_ s'
    obtain ⟨x, hx, hunbound⟩ := htext
    rcases List.mem_cons.1 hx with rfl | hx
    · exact absurd hunbound hbound
    · exact ⟨x, hx, hunbound⟩

end

end TapeMachine
