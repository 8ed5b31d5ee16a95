import ADT.Emergency.Runs
import ADT.Lib.Guarded

/-!
# Emergency.Held — what the latch holds over a run

From the return of `latch` until a resume is in force no job is admitted, in every run.  A resume is in force only for
a generation that the latest stop has not observed, in the runs in which a stop that finds an earlier one with its
generation observes the same: `recordStoppedGeneration` keeps what is recorded.
-/

namespace ADT.Emergency

open Guarded
open Runner (JobId JobRunner)

/-! ### What a log says -/

/-- Whether `latch` has returned and no resume is in force since. -/
def held : List Event → Bool
  | [] => false
  | .returned _ (.latch _) true :: _ => true
  | .resumed _ :: _ => false
  | _ :: log => held log

/-- The generation that the latest emergency stop has observed. -/
def observed : List Event → Option String
  | [] => none
  | .latched generation :: _ => generation
  | .recorded generation :: log => (observed log).or (some generation)
  | _ :: log => observed log

/-- A log in which no job is admitted while the latch is held, and what is resumed differs from what was observed. -/
def Lawful : List Event → Prop
  | [] => True
  | .admitted _ :: log => held log = false ∧ Lawful log
  | .resumed current :: log => (∃ g, current = some g ∧ observed log ≠ some g) ∧ Lawful log
  | _ :: log => Lawful log

theorem held_append {later : List Event} (hlater : ∀ current, .resumed current ∉ later) {log : List Event}
    (hlog : held log = true) : held (later ++ log) = true := by
  induction later with
  | nil => exact hlog
  | cons e later ih =>
    have hrest := ih fun current h => hlater current (List.mem_cons_of_mem _ h)
    rw [List.cons_append]
    unfold held
    split
    · exact absurd ‹_› (List.cons_ne_nil _ _)
    · rfl
    · next heq =>
      rw [(List.cons.inj heq).1] at hlater
      exact absurd (List.mem_cons_self ..) (hlater _)
    · next heq =>
      rw [← (List.cons.inj heq).2]
      exact hrest

theorem Lawful.tail {later log : List Event} (h : Lawful (later ++ log)) : Lawful log := by
  induction later with
  | nil => exact h
  | cons e later ih =>
    refine ih ?_
    cases e with
    | admitted id => exact h.2
    | resumed current => exact h.2
    | latched g => exact h
    | recorded g => exact h
    | restarted => exact h
    | returned t c ok => exact h
    | crashed => exact h

/-! ### What every move keeps -/

namespace Server

variable {digest : String → Runner.Digest} {cfg : Runner.Config} {webhook : Bool} {P : Call → Prop} {w w' : Server}
  {m : Move} {s s' : EmergencyState}

/-- Whether a move lets a stop that finds an earlier one with its generation observe another one. -/
def diverges (w : Server) (m : Move) : Bool :=
  match m.act, w.waiting with
  | .turn, (_, .recordStoppedGeneration generation) :: _ =>
    w.state.emergencyStopped && (given w.state.stoppedGeneration).isSome && (observed w.log).isNone &&
      w.state.stoppedGeneration != some generation
  | _, _ => false

/-- The latch over a run: `s` is the state in force. -/
structure Latched (w : Server) (s : EmergencyState) : Prop where
  stopped : held w.log = true → s.emergencyStopped = true
  /-- While an operation ends, the process still goes by the state before it. -/
  memory : w.up = true → held w.log = true → w.state.emergencyStopped = true
  noted : ∀ g, observed w.log = some g → g ≠ "" → s.emergencyStopped = true → s.stoppedGeneration = some g
  lawful : Lawful w.log

theorem latched_initial : Latched initial .initial where
  stopped h := absurd h (by decide)
  memory h := absurd h (by decide)
  noted g h := absurd h (by simp [initial, observed])
  lawful := trivial

/-- What the process tells is lawful, and it neither holds nor releases. -/
theorem Latched.tells (h : Latched w s) {es : List Event} (hes : ∀ e ∈ es, w.Tells s e) :
    held (es ++ w.log) = held w.log ∧ observed (es ++ w.log) = observed w.log ∧ Lawful (es ++ w.log) := by
  induction es with
  | nil => exact ⟨rfl, rfl, h.lawful⟩
  | cons e es ih =>
    obtain ⟨hheld, hobserved, hlawful⟩ := ih fun e' he' => hes e' (List.mem_cons_of_mem _ he')
    have he := hes e (List.mem_cons_self ..)
    rw [List.cons_append]
    cases e with
    | latched g => exact he.elim
    | recorded g => exact he.elim
    | restarted => exact he.elim
    | resumed current => exact he.elim
    | crashed => exact ⟨hheld, hobserved, hlawful⟩
    | admitted id =>
      refine ⟨hheld, hobserved, ?_, hlawful⟩
      rw [hheld]
      by_contra hnot
      have hopen := he.2
      rw [h.memory he.1 (Bool.not_eq_false _ ▸ hnot)] at hopen
      cases hopen
    | returned ticket call ok =>
      refine ⟨?_, hobserved, hlawful⟩
      cases call with
      | latch g =>
        rcases he with rfl | he
        · exact hheld
        · exact absurd rfl (he.1 g)
      | recordStoppedGeneration g => exact hheld
      | triggerHardRestart => exact hheld
      | resume current idle => exact hheld

/-- **The next state is in place.** -/
theorem Latched.land (h : Latched w s) {call : Call} (hwrites : call.Writes s s') (hlog : w'.log = call.event :: w.log)
    (hup : w.up = true) (hstate : w'.state = w.state) : Latched w' s' := by
  have hmemory : w'.up = true → held w.log = true → w'.state.emergencyStopped = true := fun _ hheld => by
    rw [hstate]
    exact h.memory hup hheld
  cases call with
  | latch g =>
    obtain ⟨hstopped, hgeneration, -⟩ := hwrites
    refine ⟨fun _ => hstopped, hlog ▸ hmemory, fun g' hg' hne _ => ?_, hlog ▸ h.lawful⟩
    have hg : g = some g' := (congrArg observed hlog).symm.trans hg'
    rw [hgeneration, hg, Option.some_or, given_eq_some]
    exact ⟨rfl, hne⟩
  | recordStoppedGeneration g =>
    obtain ⟨hstopped, hfree, hnext, hgeneration, -⟩ := hwrites
    refine ⟨fun _ => hnext, hlog ▸ hmemory, fun g' hg' hne _ => ?_, hlog ▸ h.lawful⟩
    have hseen' : (observed w.log).or (some g) = some g' := (congrArg observed hlog).symm.trans hg'
    cases hseen : observed w.log with
    | none =>
      rw [hseen, Option.none_or] at hseen'
      exact hgeneration.trans hseen'
    | some g₀ =>
      -- nothing is written over a generation that the same stop has observed
      rw [hseen, Option.some_or] at hseen'
      have hkept := h.noted g' (hseen.trans hseen') hne hstopped
      rw [hkept, given_eq_some.mpr ⟨rfl, hne⟩] at hfree
      cases hfree
  | triggerHardRestart =>
    obtain ⟨hstopped, hnext, hgeneration, -⟩ := hwrites
    refine ⟨fun _ => hnext, hlog ▸ hmemory, fun g hg hne _ => ?_, hlog ▸ h.lawful⟩
    have hseen : observed w.log = some g := (congrArg observed hlog).symm.trans hg
    exact hgeneration.trans (h.noted g hseen hne hstopped)
  | resume current idle =>
    obtain ⟨hstopped, -, hnext, -, g, hcurrent, hne, hdiffers⟩ := hwrites
    have hfree : held w'.log = false := congrArg held hlog
    refine ⟨fun hheld => ?_, fun _ hheld => ?_, fun _ _ _ hs => ?_, hlog ▸ ⟨⟨g, hcurrent, fun hseen => ?_⟩, h.lawful⟩⟩
    · exact absurd (hfree.symm.trans hheld) (by decide)
    · exact absurd (hfree.symm.trans hheld) (by decide)
    · exact absurd (hnext.symm.trans hs) (by decide)
    · exact hdiffers (h.noted g hseen hne hstopped)

/-- **One move.** -/
theorem Latched.step (h : Latched w s) (hchange : Change P w w' m s s') (hgood : w.diverges m = false) :
    Latched w' s' := by
  cases hchange with
  | told es htells hlog hstate =>
    obtain ⟨hheld, hobserved, hlawful⟩ := h.tells htells
    rw [← hlog] at hheld hobserved hlawful
    refine ⟨fun hh => h.stopped (hheld ▸ hh), fun hup hh => ?_, fun g hg => h.noted g (hobserved ▸ hg), hlawful⟩
    rcases hstate hup with ⟨hup', hsame⟩ | hsame
    · rw [hsame]
      exact h.memory hup' (hheld ▸ hh)
    · rw [hsame]
      exact h.stopped (hheld ▸ hh)
  | ignored ticket g rest hact hnext hup hinForce hstopped hfound hlog hstate =>
    have hheld : held w'.log = held w.log := by rw [hlog]; rfl
    have hobserved : observed w'.log = (observed w.log).or (some g) := by rw [hlog]; rfl
    refine ⟨fun hh => h.stopped (hheld ▸ hh), fun _ hh => ?_, fun g' hg' hne hs => ?_, hlog ▸ h.lawful⟩
    · rw [hstate]
      exact h.memory hup (hheld ▸ hh)
    · cases hseen : observed w.log with
      | some g₀ =>
        rw [hobserved, hseen, Option.some_or] at hg'
        exact h.noted g' (hseen.trans hg') hne hs
      | none =>
        -- the stop observes what is recorded
        rw [hobserved, hseen, Option.none_or] at hg'
        rw [← hg']
        simpa [diverges, hact, hnext, hseen, hinForce, hstopped, hfound] using hgood
  | landed call _ _ hwrites hup hlog hstate => exact h.land hwrites hlog hup hstate
  | settled ticket call before hwrites hlog hstate =>
    have hobserved : observed w'.log = observed w.log := by rw [hlog]; rfl
    have hstopped : held w'.log = true → s.emergencyStopped = true := by
      rw [hlog]
      intro hheld
      cases call with
      | latch g => exact hwrites.1
      | recordStoppedGeneration g => exact h.stopped hheld
      | triggerHardRestart => exact h.stopped hheld
      | resume current idle => exact h.stopped hheld
    exact ⟨hstopped, fun _ hheld => hstate ▸ hstopped hheld, fun g hg => h.noted g (hobserved ▸ hg), hlog ▸ h.lawful⟩

theorem latched_of_reaches (h : Reaches (step digest cfg webhook) (fun v m => v.diverges m = false) initial w) :
    ∃ s, Tracked (fun _ => True) w s ∧ Latched w s := by
  refine h.invariant (I := fun w => ∃ s, Tracked (fun _ => True) w s ∧ Latched w s)
    ⟨.initial, tracked_initial, latched_initial⟩ ?_
  rintro v v' m ⟨s, htracked, hlatched⟩ hgood hmove
  obtain ⟨s', htracked', hchange⟩ := htracked.step (fun _ _ _ => trivial) hmove
  exact ⟨s', htracked', hlatched.step hchange hgood⟩

/-! ### The latch -/

/-- No job is admitted between the return of `latch` and a resume in force. -/
def AdmitsNone (log : List Event) : Prop :=
  ∀ later earlier ticket generation, log = later ++ .returned ticket (.latch generation) true :: earlier →
    (∀ current, .resumed current ∉ later) → ∀ id, .admitted id ∉ later

/-- A resume is in force only for a generation that the latest stop has not observed. -/
def ResumesOthers (log : List Event) : Prop :=
  ∀ later earlier current, log = later ++ .resumed current :: earlier → ∃ g, current = some g ∧ observed earlier ≠ some g

theorem admitsNone_of_lawful {log : List Event} (h : Lawful log) : AdmitsNone log := by
  rintro later earlier ticket generation rfl hlater id hid
  obtain ⟨after, before, rfl⟩ := List.append_of_mem hid
  rw [List.append_assoc] at h
  have hfree : held (before ++ .returned ticket (.latch generation) true :: earlier) = false := h.tail.1
  have hheld : held (before ++ .returned ticket (.latch generation) true :: earlier) = true :=
    held_append (fun current hcurrent => hlater current (by simp [hcurrent])) rfl
  rw [hfree] at hheld
  cases hheld

theorem resumesOthers_of_lawful {log : List Event} (h : Lawful log) : ResumesOthers log := by
  rintro later earlier current rfl
  exact h.tail.1

/-- **The emergency latch.**  In every run in which a stop observes the generation that is recorded where there is
one, no job is admitted from the return of `latch` until a resume is in force, and a resume is in force only for a
generation other than the one that the latest stop has observed. -/
theorem emergency_latch (h : Reaches (step digest cfg webhook) (fun v m => v.diverges m = false) initial w) :
    AdmitsNone w.log ∧ ResumesOthers w.log := by
  obtain ⟨s, -, hw⟩ := latched_of_reaches h
  exact ⟨admitsNone_of_lawful hw.lawful, resumesOthers_of_lawful hw.lawful⟩

end Server

namespace Sample

def moves (acts : List Act) : List Move := acts.map (⟨.newYear, ·⟩)

def generationA : String := "4f98e9de-5ca3-4e7e-8c79-bac2edfae84b"
def generationB : String := "7c1d2a90-41aa-4b6e-9d0c-1f2e3a4b5c6d"

/-- A call that writes comes to its turn and ends. -/
def writing (ticket : ℕ) (call : Call) : List Act := [.call ticket call, .turn, .write true, .finish]

/-- A call that has nothing to write comes to its turn. -/
def passing (ticket : ℕ) (call : Call) : List Act := [.call ticket call, .turn]

def restarting (ticket : ℕ) : List Act :=
  [.call ticket .triggerHardRestart, .turn, .answered (some true), .write true, .finish]

/-- The process starts and admits a job. -/
def opening : List Act :=
  [.boot, .jobs .boot, .jobs .loaded,
    .jobs (.start (Runner.Sample.input "first") (some Runner.Sample.environment) true Runner.Sample.jobA)]

/-- An emergency stop of the first generation. -/
def stopping : List Act :=
  writing 1 (.latch none) ++ writing 1 (.recordStoppedGeneration generationA) ++ restarting 1

end Sample

namespace Server

/-- A stop, a restart of the process and a resume with the generation after it. -/
theorem emergency_latch_resumed :
    ∃ w : Server, w.log.head? = some (.returned 2 (.resume (some Sample.generationB) true) true) ∧
      AdmitsNone w.log ∧ ResumesOthers w.log := by
  obtain ⟨w, hreach, hlog⟩ : ∃ w, Reaches (step Runner.Sample.digest Runner.Sample.split true) _ initial w ∧
      decide (w.log.head? = some (.returned 2 (.resume (some Sample.generationB) true) true)) = true :=
    reaches_of_any (fun (v : Server) m => !v.diverges m)
      (Sample.moves (Sample.opening ++ Sample.stopping ++ [.crash fun _ => false, .boot] ++
        Sample.writing 2 (.resume (some Sample.generationB) true))) _ (by decide +kernel)
  exact ⟨w, of_decide_eq_true hlog, emergency_latch (hreach.mono fun _ _ hgood => by simpa using hgood)⟩

/-- A second stop that observes another generation is resumed with that generation. -/
theorem secondStop_resumed :
    ¬∀ w : Server, Reaches (step Runner.Sample.digest Runner.Sample.split true) (fun _ _ => True) initial w →
      AdmitsNone w.log ∧ ResumesOthers w.log := by
  intro hall
  obtain ⟨w, hreach, htest⟩ : ∃ w, Reaches (step Runner.Sample.digest Runner.Sample.split true) _ initial w ∧
      decide (w.log.take 2 = [.returned 3 (.resume (some Sample.generationB) true) true,
        .resumed (some Sample.generationB)] ∧ observed (w.log.drop 2) = some Sample.generationB) = true :=
    reaches_of_any (fun _ _ => true)
      (Sample.moves (Sample.opening ++ Sample.stopping ++ Sample.writing 2 (.latch none) ++
        Sample.passing 2 (.recordStoppedGeneration Sample.generationB) ++ Sample.restarting 2 ++
        Sample.writing 3 (.resume (some Sample.generationB) true))) _ (by decide +kernel)
  obtain ⟨htake, hseen⟩ := of_decide_eq_true htest
  have hlog : w.log = [.returned 3 (.resume (some Sample.generationB) true) true] ++
      .resumed (some Sample.generationB) :: w.log.drop 2 := by
    rw [← List.take_append_drop 2 w.log, htake]
    rfl
  obtain ⟨g, hg, hdiffers⟩ := (hall w (hreach.mono fun _ _ _ => trivial)).2 _ _ _ hlog
  cases hg
  exact hdiffers hseen

end Server

end ADT.Emergency
