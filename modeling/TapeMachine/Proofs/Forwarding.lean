import Mathlib.Data.List.Chain
import TapeMachine.Proofs.Footprint

/-!
# Forwarding

A context that is not on top gets a character only because a context above it has passed it on.  It takes the character
down, passes it on in its turn, and does nothing else (`forwarding_only_records`).  This holds of any stack, also of one
that a host has built, as long as every context names a recording below itself as its parent
(`ContextStack.ParentsBelow`).

* The indices that are visited decrease, so that forwarding comes to an end; the fuel that it takes is their number.
* A character that every visited context knows is taken down by each of them that is an open recording, once.
* The first context that does not know the character refuses it.  The contexts before it have taken it down all the
  same.
-/

namespace TapeMachine

variable {τ κ : Type}

/-! ### What a context has to say about a character -/

namespace Context

/-- The index of the context around this one, whether or not anything is passed on to it. -/
def parent? : Context κ → Option Nat
  | plain _ => none
  | recording r => r.parent
  | skip s => s.parent

/-- The characters that mean something here without being bound. -/
def brackets : Context κ → List Char
  | plain _ => []
  | recording r => [r.exit]
  | skip s => [s.enter, s.exit]

/-- `c` means something here. -/
def Knows (c : Char) (context : Context κ) : Prop := c ∈ context.brackets ∨ c ∈ context.commands

/-- The context belongs to a loop. -/
def IsLoop (context : Context κ) : Prop := ∀ commands, context ≠ plain commands

def IsRecording (context : Context κ) : Prop := ∃ r, context = recording r

/-- The context without what it has recorded: its mapping, its brackets, its parent, and whether it is open or how deep
it is. -/
def outline : Context κ → Context κ
  | recording r => recording { r with recorded := #[] }
  | other => other

variable {context : Context κ} {c : Char}

theorem parent?_of_forward? {parent : Nat} (h : context.forward? = some parent) : context.parent? = some parent := by
  cases context with
  | plain commands => exact h
  | skip s => exact h
  | recording r =>
    rw [forward?] at h
    split at h
    · exact h
    · cases h

theorem knows_recording_iff {r : Recording κ} : (recording r).Knows c ↔ r.effect? c ≠ none := by
  rw [ne_eq, Recording.effect?_eq_none_iff, not_and_or, not_not, ← ne_eq, ← Option.isSome_iff_ne_none,
    ← Std.TreeMap.mem_iff_isSome_getElem?]
  simp [Knows, brackets, commands]

theorem knows_skip_iff {s : Skip κ} : (skip s).Knows c ↔ s.recognizes c := by
  rw [Skip.recognizes_iff, ← Option.isSome_iff_ne_none, ← Std.TreeMap.mem_iff_isSome_getElem?, ← or_assoc]
  simp [Knows, brackets, commands]

/-! A context that takes a character down stays what it is in every other respect. -/

@[simp]
theorem outline_save : (context.save c).outline = context.outline := by
  cases context with
  | plain | skip => rfl
  | recording r =>
    simp only [save, outline, Recording.save]
    split <;> rfl

theorem forward?_outline : context.outline.forward? = context.forward? := by cases context <;> rfl

theorem parent?_outline : context.outline.parent? = context.parent? := by cases context <;> rfl

theorem knows_outline : context.outline.Knows c ↔ context.Knows c := by cases context <;> rfl

theorem isRecording_outline : context.outline.IsRecording ↔ context.IsRecording := by
  cases context <;> simp [outline, IsRecording]

end Context

namespace ContextStack

/-- There is a context at `index`, and it has the property `P`. -/
def At (stack : ContextStack κ) (index : Nat) (P : Context κ → Prop) : Prop :=
  ∃ context, stack.get? index = some context ∧ P context

/-- Every context that has a parent has it below itself, and the parent is a recording. -/
def ParentsBelow (stack : ContextStack κ) : Prop :=
  ∀ index parent, stack.At index (·.parent? = some parent) → parent < index ∧ stack.At parent Context.IsRecording

/-- The context at `index` passes the characters that it knows on to the context at `parent`. -/
def PassesOn (stack : ContextStack κ) (index parent : Nat) : Prop := stack.At index (·.forward? = some parent)

/-- Two stacks whose contexts differ in nothing but what they have recorded. -/
def SameOutline (stack stack' : ContextStack κ) : Prop :=
  ∀ index, (stack'.get? index).map Context.outline = (stack.get? index).map Context.outline

namespace SameOutline

variable {stack stack' : ContextStack κ}

/-- A property that does not hang on what was recorded holds in both stacks. -/
theorem at_iff (h : SameOutline stack stack') {P : Context κ → Prop} (hP : ∀ context, P context.outline ↔ P context)
    {index : Nat} : stack'.At index P ↔ stack.At index P := by
  have houtline : ∀ s : ContextStack κ, s.At index P ↔ ∃ o, (s.get? index).map Context.outline = some o ∧ P o := by
    intro s
    simp only [At, Option.map_eq_some_iff]
    constructor
    · rintro ⟨context, hget, hcontext⟩
      exact ⟨_, ⟨context, hget, rfl⟩, (hP context).2 hcontext⟩
    · rintro ⟨_, ⟨context, hget, rfl⟩, hcontext⟩
      exact ⟨context, hget, (hP context).1 hcontext⟩
  rw [houtline, houtline, h index]

theorem passesOn_iff (h : SameOutline stack stack') {index parent : Nat} :
    stack'.PassesOn index parent ↔ stack.PassesOn index parent :=
  h.at_iff fun _ => by rw [Context.forward?_outline]

theorem knows_iff (h : SameOutline stack stack') {index : Nat} {c : Char} :
    stack'.At index (·.Knows c) ↔ stack.At index (·.Knows c) :=
  h.at_iff fun _ => Context.knows_outline

theorem parentsBelow (h : SameOutline stack stack') (hstack : stack.ParentsBelow) : stack'.ParentsBelow := by
  intro index parent hparent
  rw [h.at_iff fun _ => by rw [Context.parent?_outline]] at hparent
  rw [h.at_iff fun _ => Context.isRecording_outline]
  exact hstack index parent hparent

end SameOutline

/-! ### What is taken down -/

variable {stack stack' stack'' : ContextStack κ} {index : Nat} {c : Char}

/-- `stack'` is `stack` after the contexts at `indices` were told of `c`.  Those of them that are open recordings have
recorded it, and no other context has changed. -/
structure Told (c : Char) (indices : List Nat) (stack stack' : ContextStack κ) : Prop where
  /-- The limit of the stack and its journal are as they were. -/
  rest : stack' = { stack with items := stack'.items }
  size : stack'.size = stack.size
  outline : stack.SameOutline stack'
  records (i : Nat) : Context.Records c (i ∈ indices) (stack.get? i) (stack'.get? i)

namespace Told

theorem get?_of_mem {indices : List Nat} (h : Told c indices stack stack') {i : Nat} (hi : i ∈ indices) :
    stack'.get? i = (stack.get? i).map (Context.save c) :=
  (Context.records_iff.1 (h.records i)).1 hi

theorem get?_of_notMem {indices : List Nat} (h : Told c indices stack stack') {i : Nat} (hi : i ∉ indices) :
    stack'.get? i = stack.get? i :=
  (Context.records_iff.1 (h.records i)).2 hi

theorem nil (c : Char) (stack : ContextStack κ) : Told c [] stack stack :=
  ⟨rfl, rfl, fun _ => rfl, fun _ => Context.records_iff.2 ⟨nofun, fun _ => rfl⟩⟩

theorem single (c : Char) (index : Nat) (stack : ContextStack κ) :
    Told c [index] stack (stack.modify index (Context.save c)) := by
  refine ⟨rfl, size_modify _ _ _, fun i => ?_, fun i => Context.records_iff.2 ⟨fun hi => ?_, fun hi => ?_⟩⟩
  · rw [get?_modify]
    split
    · simp [Option.map_map, Function.comp_def]
    · rfl
  · rw [get?_modify, if_pos (List.mem_singleton.1 hi).symm]
  · rw [get?_modify, if_neg fun heq => hi (List.mem_singleton.2 heq.symm)]

/-- No context is told of a character twice. -/
theorem cons {indices : List Nat} (h : Told c [index] stack stack') (h' : Told c indices stack' stack'')
    (hindex : index ∉ indices) : Told c (index :: indices) stack stack'' := by
  refine ⟨?_, h'.size.trans h.size, fun i => (h'.outline i).trans (h.outline i),
    fun i => Context.records_iff.2 ⟨fun hi => ?_, fun hi => ?_⟩⟩
  · rw [h'.rest, h.rest]
  · rcases List.mem_cons.1 hi with rfl | hi
    · rw [h'.get?_of_notMem hindex, h.get?_of_mem List.mem_cons_self]
    · have hne : i ≠ index := ne_of_mem_of_not_mem hi hindex
      rw [h'.get?_of_mem hi, h.get?_of_notMem (List.mem_singleton.not.2 hne)]
  · rw [List.mem_cons, not_or] at hi
    rw [h'.get?_of_notMem hi.2, h.get?_of_notMem (List.mem_singleton.not.2 hi.1)]

end Told

/-- How a character ends that is passed on below the top. -/
inductive Forwarded (c : Char) (stack : ContextStack κ) : List Nat → Outcome (ContextStack κ) → Prop where
  /-- Every context on the way knew the character, and the last of them passes nothing on. -/
  | done {visited : List Nat} {stack' : ContextStack κ} (hknown : ∀ i ∈ visited, stack.At i (·.Knows c))
    (hlast : ∀ i ∈ visited.getLast?, ∀ parent, ¬stack.PassesOn i parent) (h : Told c visited stack stack') :
    Forwarded c stack visited (.done stack')
  /-- The last context on the way was the first that did not know the character. -/
  | refused {before : List Nat} {last : Nat} {stack' : ContextStack κ} (hknown : ∀ i ∈ before, stack.At i (·.Knows c))
    (hunknown : stack.At last (¬·.Knows c)) (h : Told c before stack stack') :
    Forwarded c stack (before ++ [last]) (.failed (.unknownCharacter c) stack')

/-- A context that has taken the character down and passed it on. -/
theorem Forwarded.cons {visited : List Nat} {outcome : Outcome (ContextStack κ)} (hknown : stack.At index (·.Knows c))
    (h : Forwarded c (stack.modify index (Context.save c)) visited outcome) (hvisited : visited ≠ [])
    (hindex : index ∉ visited) : Forwarded c stack (index :: visited) outcome := by
  have htold := Told.single c index stack
  cases h with
  | done hrest hlast h =>
    refine .done (List.forall_mem_cons.2 ⟨hknown, fun i hi => ?_⟩) (fun i hi parent => ?_) (htold.cons h hindex)
    · exact htold.outline.knows_iff.1 (hrest i hi)
    · rw [List.getLast?_cons_of_ne_nil hvisited] at hi
      rw [← htold.outline.passesOn_iff]
      exact hlast i hi parent
  | @refused before last _ hbefore hunknown h =>
    have hnotMem : index ∉ before := fun hmem => hindex (List.mem_append_left _ hmem)
    refine .refused (List.forall_mem_cons.2 ⟨hknown, fun i hi => ?_⟩) ?_ (htold.cons h hnotMem)
    · exact htold.outline.knows_iff.1 (hbefore i hi)
    · exact (htold.outline.at_iff fun _ => not_congr Context.knows_outline).1 hunknown

/-- A skip context has nowhere to take a character down. -/
theorem modify_save_skip {s : Skip κ} (hget : stack.get? index = some (.skip s)) (c : Char) :
    stack.modify index (Context.save c) = stack := by
  have htold := Told.single c index stack
  have hitems : (stack.modify index (Context.save c)).items = stack.items := by
    refine Array.ext_getElem? fun i => ?_
    change (stack.modify index (Context.save c)).get? i = stack.get? i
    by_cases hi : i = index
    · rw [htold.get?_of_mem (List.mem_singleton.2 hi), hi, hget]
      rfl
    · exact htold.get?_of_notMem (List.mem_singleton.not.2 hi)
  rw [htold.rest, hitems]

end ContextStack

/-- The machine with the given contexts. -/
def Store.under (s : Store τ) (stack : ContextStack κ) : Machine τ κ := ⟨s.tape, stack, s.input, s.output⟩

namespace ContextStack

open Machine (executeAt forward)

variable {stack : ContextStack κ} {context : Context κ} {index : Nat} {c : Char}

/-! ### One context -/

section

variable [Tape τ] {host : κ → Machine τ κ → Outcome (Machine τ κ)}

theorem executeAt_loop_unknown (hget : stack.get? index = some context) (hloop : context.IsLoop)
    (hunknown : ¬context.Knows c) (fuel : Nat) (s : Store τ) :
    executeAt host (fuel + 1) index c (s.under stack) = .failed (.unknownCharacter c) (s.under stack) := by
  cases context with
  | plain commands => exact absurd rfl (hloop commands)
  | recording r =>
    rw [Context.knows_recording_iff, not_not] at hunknown
    exact Machine.executeAt_recording_unknown hget hunknown fuel
  | skip skip =>
    rw [Context.knows_skip_iff] at hunknown
    exact Machine.executeAt_skip_unknown hget hunknown fuel

/-- Below the top a loop that knows the character takes it down and passes it on. -/
theorem executeAt_loop_below (hget : stack.get? index = some context) (hloop : context.IsLoop)
    (hknown : context.Knows c) (hbelow : index + 1 < stack.size) (fuel : Nat) (s : Store τ) :
    executeAt host (fuel + 1) index c (s.under stack) =
      (s.under (stack.modify index (Context.save c))).forward (executeAt host fuel) context.forward? c := by
  have htop : stack.topIndex? ≠ some index := by
    rw [ne_eq, topIndex?_eq_some_iff]
    omega
  cases context with
  | plain commands => exact absurd rfl (hloop commands)
  | recording r =>
    rw [Context.knows_recording_iff] at hknown
    obtain ⟨effect, heffect⟩ := Option.ne_none_iff_exists'.1 hknown
    exact Machine.executeAt_recording_below hget htop heffect fuel
  | skip skip =>
    rw [Context.knows_skip_iff] at hknown
    rw [modify_save_skip hget]
    exact Machine.executeAt_skip_below hget htop hknown fuel

end

/-! ### The whole way -/

/-- The way of a character that is passed on from the context at `index`, which is not on top. -/
structure ForwardsAlong (stack : ContextStack κ) (c : Char) (index : Nat) (visited : List Nat)
    (outcome : Outcome (ContextStack κ)) : Prop where
  head : visited.head? = some index
  chain : visited.IsChain stack.PassesOn
  decreasing : visited.Pairwise (· > ·)
  /-- One unit of fuel is used in each context.  The tape, the source and the sink are left as they are, and neither
  they nor the commands of the host have a part in the outcome. -/
  executes {τ : Type} [Tape τ] (host : κ → Machine τ κ → Outcome (Machine τ κ)) (fuel : Nat) (s : Store τ) :
    executeAt host fuel index c (s.under stack) =
      if visited.length ≤ fuel then outcome.map s.under else .aborted .outOfFuel
  ends : stack.Forwarded c visited outcome

/-- A way of one context. -/
private theorem forwardsAlong_single {outcome : Outcome (ContextStack κ)} (hends : stack.Forwarded c [index] outcome)
    (h : ∀ {τ : Type} [Tape τ] (host : κ → Machine τ κ → Outcome (Machine τ κ)) (fuel : Nat) (s : Store τ),
      executeAt host (fuel + 1) index c (s.under stack) = outcome.map s.under) :
    stack.ForwardsAlong c index [index] outcome := by
  refine ⟨rfl, .singleton _, List.pairwise_singleton _ _, fun host fuel s => ?_, hends⟩
  cases fuel with
  | zero => rfl
  | succ fuel => rw [h, List.length_singleton, if_pos (Nat.le_add_left 1 fuel)]

theorem forwardsAlong_of_unknown (hget : stack.get? index = some context) (hloop : context.IsLoop)
    (hunknown : ¬context.Knows c) : stack.ForwardsAlong c index [index] (.failed (.unknownCharacter c) stack) := by
  have hends : stack.Forwarded c ([] ++ [index]) (.failed (.unknownCharacter c) stack) :=
    .refused nofun ⟨context, hget, hunknown⟩ (Told.nil c stack)
  exact forwardsAlong_single hends fun _ fuel s => executeAt_loop_unknown hget hloop hunknown fuel s

theorem forwardsAlong_of_last (hget : stack.get? index = some context) (hloop : context.IsLoop)
    (hknown : context.Knows c) (hbelow : index + 1 < stack.size) (hforward : context.forward? = none) :
    stack.ForwardsAlong c index [index] (.done (stack.modify index (Context.save c))) := by
  refine forwardsAlong_single (.done ?_ ?_ (Told.single c index stack)) fun host fuel s => ?_
  · exact List.forall_mem_singleton.2 ⟨context, hget, hknown⟩
  · rintro i hi parent ⟨context', hget', hforward'⟩
    obtain rfl : index = i := by simpa using hi
    obtain rfl : context = context' := Option.some.inj (hget.symm.trans hget')
    rw [hforward] at hforward'
    cases hforward'
  · rw [executeAt_loop_below hget hloop hknown hbelow, hforward]
    rfl

/-- What a context has taken down does not change the way from its parent on. -/
theorem ForwardsAlong.cons {parent : Nat} {visited : List Nat} {outcome : Outcome (ContextStack κ)}
    (h : (stack.modify index (Context.save c)).ForwardsAlong c parent visited outcome)
    (hget : stack.get? index = some context) (hloop : context.IsLoop) (hknown : context.Knows c)
    (hbelow : index + 1 < stack.size) (hforward : context.forward? = some parent) (hparent : parent < index) :
    stack.ForwardsAlong c index (index :: visited) outcome := by
  have houtline := (Told.single c index stack).outline
  obtain ⟨rest, rfl⟩ := List.head?_eq_some_iff.1 h.head
  have hlt : ∀ i ∈ parent :: rest, i < index := by
    intro i hi
    rcases List.mem_cons.1 hi with rfl | hi
    · exact hparent
    · exact Nat.lt_trans ((List.pairwise_cons.1 h.decreasing).1 i hi) hparent
  have hnotMem : index ∉ parent :: rest := fun hmem => Nat.lt_irrefl index (hlt index hmem)
  refine ⟨rfl, ?_, List.pairwise_cons.2 ⟨hlt, h.decreasing⟩, fun host fuel s => ?_,
    h.ends.cons ⟨context, hget, hknown⟩ (List.cons_ne_nil _ _) hnotMem⟩
  · refine List.isChain_cons_cons.2 ⟨⟨context, hget, hforward⟩, ?_⟩
    exact h.chain.imp fun _ _ hpasses => houtline.passesOn_iff.1 hpasses
  · cases fuel with
    | zero => rfl
    | succ fuel =>
      rw [executeAt_loop_below hget hloop hknown hbelow, hforward]
      simp only [forward, h.executes host fuel, List.length_cons, Nat.add_le_add_iff_right]

/-- Below the top the contexts of loops only record.  A character is passed on from one to the next, each of them below
the one before, until one of them passes nothing on or does not know the character.  In either case those that knew it
have taken it down, once, and everything else is as it was. -/
theorem forwarding_only_records (stack : ContextStack κ) (hparents : stack.ParentsBelow) (index : Nat)
    (hloop : stack.At index Context.IsLoop) (hbelow : index + 1 < stack.size) (c : Char) :
    ∃ visited outcome, stack.ForwardsAlong c index visited outcome := by
  induction index using Nat.strong_induction_on generalizing stack with
  | _ index ih =>
    obtain ⟨context, hget, hcontext⟩ := hloop
    by_cases hknown : context.Knows c
    · cases hforward : context.forward? with
      | none => exact ⟨_, _, forwardsAlong_of_last hget hcontext hknown hbelow hforward⟩
      | some parent =>
        have htold := Told.single c index stack
        obtain ⟨hparent, hrecording⟩ := hparents index parent ⟨context, hget, Context.parent?_of_forward? hforward⟩
        have hloop' : (stack.modify index (Context.save c)).At parent Context.IsLoop := by
          obtain ⟨_, hget', r, rfl⟩ := (htold.outline.at_iff fun _ => Context.isRecording_outline).2 hrecording
          exact ⟨_, hget', nofun⟩
        have hbelow' : parent + 1 < (stack.modify index (Context.save c)).size := by
          rw [htold.size]
          omega
        obtain ⟨visited, outcome, h⟩ := ih parent hparent _ (htold.outline.parentsBelow hparents) hloop' hbelow'
        exact ⟨_, _, h.cons hget hcontext hknown hbelow hforward hparent⟩
    · exact ⟨_, _, forwardsAlong_of_unknown hget hcontext hknown⟩

/-- A skipped loop inside an open recording inside a closed one.  The two inner contexts know `!`, and the closed
recording does not.  The open one has recorded nothing before. -/
theorem forwarding_only_records_until_refused :
    let bound : CommandMap Empty := CommandMap.standard.insert '!' .halt
    let stack (recorded : Array Char) : ContextStack Empty :=
      { items := #[.plain .standard, .recording ⟨.standard, ']', #['+'], false, none⟩,
          .recording ⟨bound, ')', recorded, true, some 1⟩, .skip ⟨bound, '(', ')', 2, some 2⟩, .plain bound] }
    let s : Store FixedTape := ⟨⟨#[7], 0⟩, .ofBytes [], {}⟩
    (stack #[]).ParentsBelow ∧ (stack #[]).At 3 Context.IsLoop ∧ 3 + 1 < (stack #[]).size ∧
      executeAt Machine.noHost 3 3 '!' (s.under (stack #[])) =
        .failed (.unknownCharacter '!') (s.under (stack #['!'])) ∧
      ∃ visited outcome, (stack #[]).ForwardsAlong '!' 3 visited outcome := by
  intro bound stack s
  have hparents : (stack #[]).ParentsBelow := by
    rintro index parent ⟨context, hget, hparent⟩
    rcases index with _ | _ | _ | _ | _ | index
    all_goals cases hget
    all_goals cases hparent
    · exact ⟨by decide, _, rfl, _, rfl⟩
    · exact ⟨by decide, _, rfl, _, rfl⟩
  have hloop : (stack #[]).At 3 Context.IsLoop := ⟨_, rfl, nofun⟩
  have hbelow : 3 + 1 < (stack #[]).size := by decide
  exact ⟨hparents, hloop, hbelow, rfl, forwarding_only_records _ hparents 3 hloop hbelow '!'⟩

end ContextStack

end TapeMachine
