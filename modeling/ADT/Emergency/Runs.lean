import ADT.Emergency.Latch
import ADT.Runner.Tasks

/-!
# Emergency.Runs — what a move of the server does

The state in force is the one that a restart takes from the file.  A move changes it only when the next state is in
place; everything else that a move does is told in `Change`, and the invariants of the runs are derived from that.
-/

namespace ADT.Emergency

open Runner (JobId JobRunner)

/-! ### What one operation does -/

/-- What an operation that writes makes of the state. -/
def Call.Writes (call : Call) (s next : EmergencyState) : Prop :=
  match call with
  | .latch generation =>
    next.emergencyStopped = true ∧ next.stoppedGeneration = given (generation.or s.stoppedGeneration) ∧
      next.restartPhaseComplete = false
  | .recordStoppedGeneration generation =>
    s.emergencyStopped = true ∧ given s.stoppedGeneration = none ∧ next.emergencyStopped = true ∧
      next.stoppedGeneration = some generation ∧ next.hardRestart = s.hardRestart
  | .triggerHardRestart =>
    s.emergencyStopped = true ∧ next.emergencyStopped = true ∧ next.stoppedGeneration = s.stoppedGeneration ∧
      next.restartPhaseComplete = true
  | .resume currentGeneration _ =>
    s.emergencyStopped = true ∧ s.restartPhaseComplete = true ∧ next.emergencyStopped = false ∧
      next.stoppedGeneration = none ∧ ∃ g, currentGeneration = some g ∧ g ≠ "" ∧ s.stoppedGeneration ≠ some g

theorem given_eq_some {generation : Option String} {g : String} :
    given generation = some g ↔ generation = some g ∧ g ≠ "" := by
  rw [given, Option.filter_eq_some_iff]
  simp

variable {call : Call} {now : Instant} {s : EmergencyState}

theorem Call.writes_of_turn {next : EmergencyState} (h : call.turn now s = .writes next) : call.Writes s next := by
  cases call with
  | latch generation =>
    obtain rfl := Turn.writes.inj h
    exact ⟨rfl, rfl, rfl⟩
  | recordStoppedGeneration generation =>
    rw [turn] at h
    split at h
    · cases h
    · next hwrites =>
      obtain rfl := Turn.writes.inj h
      simp only [Bool.or_eq_true, Bool.not_eq_true', not_or, Bool.not_eq_false, Bool.not_eq_true,
        Option.isSome_eq_false_iff, Option.isNone_iff_eq_none] at hwrites
      exact ⟨hwrites.1, hwrites.2, hwrites.1, rfl, rfl⟩
  | triggerHardRestart =>
    rw [turn] at h
    split at h
    · cases h
    · cases h
  | resume currentGeneration idle =>
    rw [turn] at h
    split at h
    · cases h
    · next hstopped =>
      split at h
      · cases h
      · next hsafe =>
        obtain rfl := Turn.writes.inj h
        simp only [Bool.or_eq_true, not_or, Bool.not_eq_true, Option.isNone_eq_false_iff,
          Bool.not_eq_eq_eq_not, Bool.not_true, Bool.not_eq_false] at hsafe
        obtain ⟨⟨⟨hcomplete, hcurrent⟩, -⟩, hdiffers⟩ := hsafe
        obtain ⟨g, hg⟩ := Option.isSome_iff_exists.mp hcurrent
        obtain ⟨rfl, hne⟩ := given_eq_some.mp hg
        refine ⟨by simpa using hstopped, hcomplete, rfl, rfl, g, rfl, hne, fun hsame => ?_⟩
        rw [hsame, given_eq_some.mpr ⟨rfl, hne⟩] at hdiffers
        simp at hdiffers

theorem Call.requests_of_turn (h : call.turn now s = .requests) :
    call = .triggerHardRestart ∧ s.emergencyStopped = true := by
  cases call with
  | latch generation => cases h
  | recordStoppedGeneration generation =>
    rw [turn] at h
    split at h <;> cases h
  | triggerHardRestart =>
    rw [turn] at h
    split at h
    · cases h
    · next hstopped => exact ⟨rfl, by simpa using hstopped⟩
  | resume currentGeneration idle =>
    rw [turn] at h
    split at h
    · cases h
    · split at h <;> cases h

theorem restartPhaseComplete_request (webhook : Bool) (response : Option Bool) (s : EmergencyState) (now : Instant) :
    EmergencyState.restartPhaseComplete
      { s with hardRestart := requestExecutorRestart webhook response, updatedAt := now } = true := by
  cases webhook with
  | false => rfl
  | true =>
    rcases response with _ | _ | _
    · rfl
    · rfl
    · rfl

theorem Call.returns_of_turn {ok : Bool} (h : call.turn now s = .returns ok) :
    (∀ generation, call ≠ .latch generation) ∧ (call = .triggerHardRestart → s.emergencyStopped = false) := by
  cases call with
  | latch generation => cases h
  | recordStoppedGeneration generation => exact ⟨fun _ => Call.noConfusion, Call.noConfusion⟩
  | triggerHardRestart =>
    rw [turn] at h
    split at h
    · next hfree => exact ⟨fun _ => Call.noConfusion, fun _ => by simpa using hfree⟩
    · cases h
  | resume currentGeneration idle => exact ⟨fun _ => Call.noConfusion, Call.noConfusion⟩

/-! ### What one move does -/

namespace Server

variable {digest : String → Runner.Digest} {cfg : Runner.Config} {webhook : Bool} {P : Call → Prop} {w w' : Server}
  {m : Move} {s s' : EmergencyState}

/-- The state that a restart takes. -/
def Filed (w : Server) (s : EmergencyState) : Prop := w.file = some s.text ∨ w.file = none ∧ s = .initial

theorem create_filed (h : w.Filed s) (hcreate : EmergencyState.create w.file = some s') : s' = s := by
  rcases h with h | ⟨h, rfl⟩
  · rw [h, s.create_text] at hcreate
    split at hcreate
    · exact (Option.some.inj hcreate).symm
    · cases hcreate
  · rw [h] at hcreate
    exact (Option.some.inj hcreate).symm

/-- What the operation that has its turn will put in force, or has put in force. -/
def Runs (w : Server) (s : EmergencyState) : Prop :=
  match w.running with
  | none => w.state = s
  | some (_, call, .webhook) => w.state = s ∧ call = .triggerHardRestart ∧ s.emergencyStopped = true
  | some (_, call, .writing next) => w.state = s ∧ call.Writes s next
  | some (_, call, .written next) => next = s ∧ call.Writes w.state s

/-- A server in which `s` is in force, that is on file; every call in its queue is one of `P`. -/
structure Tracked (P : Call → Prop) (w : Server) (s : EmergencyState) : Prop where
  filed : w.Filed s
  runs : w.up = true → w.Runs s
  down : w.up = false → w.running = none
  waiting : ∀ q ∈ w.waiting, P q.2
  running : ∀ q, w.running = some q → P q.2.1

/-- Events that neither set the latch nor lift it. -/
def Tells (w : Server) (s : EmergencyState) : Event → Prop
  | .returned _ call ok =>
    ok = false ∨ (∀ generation, call ≠ .latch generation) ∧ (call = .triggerHardRestart → s.emergencyStopped = false)
  | .admitted _ => w.up = true ∧ w.state.emergencyStopped = false
  | .crashed => True
  | _ => False

/-- What a move does: it tells of the latch; it finds a generation recorded; the next state is in place; the process
goes by it. -/
inductive Change (P : Call → Prop) (w w' : Server) (m : Move) (s : EmergencyState) : EmergencyState → Prop
  | told (es : List Event) (tells : ∀ e ∈ es, w.Tells s e) (log : w'.log = es ++ w.log)
      (state : w'.up = true → w.up = true ∧ w'.state = w.state ∨ w'.state = s) : Change P w w' m s s
  | ignored (ticket : ℕ) (generation : String) (rest : List (ℕ × Call)) (act : m.act = .turn)
      (next : w.waiting = (ticket, .recordStoppedGeneration generation) :: rest) (up : w.up = true)
      (inForce : w.state = s) (stopped : s.emergencyStopped = true) (found : (given s.stoppedGeneration).isSome = true)
      (log : w'.log = .returned ticket (.recordStoppedGeneration generation) true :: .recorded generation :: w.log)
      (state : w'.state = w.state) : Change P w w' m s s
  | landed (call : Call) (s' : EmergencyState) (permitted : P call) (writes : call.Writes s s') (up : w.up = true)
      (log : w'.log = call.event :: w.log) (state : w'.state = w.state) : Change P w w' m s s'
  | settled (ticket : ℕ) (call : Call) (before : EmergencyState) (writes : call.Writes before s)
      (log : w'.log = .returned ticket call true :: w.log) (state : w'.state = s) : Change P w w' m s s

theorem tracked_initial : Tracked P initial .initial where
  filed := .inr ⟨rfl, rfl⟩
  runs h := absurd h (by decide)
  down _ := rfl
  waiting _ h := absurd h (List.not_mem_nil)
  running _ h := by cases h

theorem Tracked.up_of_running (h : Tracked P w s) {q : ℕ × Call × Await} (hrunning : w.running = some q) :
    w.up = true := by
  by_contra hdown
  have hnone := h.down (Bool.eq_false_iff.mpr hdown)
  rw [hrunning] at hnone
  cases hnone

theorem Tracked.inForce (h : Tracked P w s) (hup : w.up = true) (hrunning : w.running = none) : w.state = s := by
  have hruns := h.runs hup
  unfold Runs at hruns
  rwa [hrunning] at hruns

/-- A call begins. -/
theorem Tracked.begin {ticket : ℕ} {call : Call} {rest : List (ℕ × Call)} (h : Tracked P w s) (hup : w.up = true)
    (hrunning : w.running = none) (hwaiting : w.waiting = (ticket, call) :: rest) (hact : m.act = .turn) :
    Tracked P (w.begin m.now ticket call rest) s ∧ Change P w (w.begin m.now ticket call rest) m s s := by
  have hstate := h.inForce hup hrunning
  have hcall : P call := h.waiting (ticket, call) (hwaiting ▸ List.mem_cons_self ..)
  have hrest : ∀ q ∈ rest, P q.2 := fun q hq => h.waiting q (hwaiting ▸ List.mem_cons_of_mem _ hq)
  have hisUp : ∀ q : ℕ × Call × Await, w.up = false → some q = none := fun _ hdown =>
    absurd (hup.symm.trans hdown) (by decide)
  unfold Server.begin
  cases hturn : call.turn m.now w.state with
  | returns ok =>
    obtain ⟨hnotLatch, hfree⟩ := Call.returns_of_turn hturn
    rw [hstate] at hfree
    refine ⟨⟨h.filed, h.runs, h.down, hrest, h.running⟩, ?_⟩
    by_cases hignored : w.ignored call = []
    · refine .told [.returned ticket call ok] (fun e he => ?_) (by rw [hignored]; rfl) fun _ => .inl ⟨hup, rfl⟩
      rw [List.mem_singleton.mp he]
      exact .inr ⟨hnotLatch, hfree⟩
    · cases call with
      | latch g => exact absurd rfl (hnotLatch g)
      | triggerHardRestart => exact absurd rfl hignored
      | resume current idle => exact absurd rfl hignored
      | recordStoppedGeneration g =>
        have hstopped : w.state.emergencyStopped = true := by
          by_contra hnot
          exact hignored (if_neg hnot)
        rw [Call.turn] at hturn
        split at hturn
        case isFalse => cases hturn
        case isTrue hfound =>
          have hsome : (given w.state.stoppedGeneration).isSome = true := by simpa [hstopped] using hfound
          obtain rfl := Turn.returns.inj hturn
          refine .ignored ticket g rest hact hwaiting hup hstate (hstate ▸ hstopped) (hstate ▸ hsome) ?_ rfl
          show _ :: ((if w.state.emergencyStopped = true then [Event.recorded g] else []) ++ w.log) = _
          rw [if_pos hstopped]
          rfl
  | requests =>
    obtain ⟨rfl, hstopped⟩ := Call.requests_of_turn hturn
    refine ⟨⟨h.filed, fun _ => ?_, hisUp _, hrest, ?_⟩, ?_⟩
    · exact ⟨hstate, rfl, hstate ▸ hstopped⟩
    · intro q hq
      rw [← Option.some.inj hq]
      exact hcall
    · exact .told [] (fun _ he => absurd he List.not_mem_nil) rfl fun _ => .inl ⟨hup, rfl⟩
  | writes next =>
    refine ⟨⟨h.filed, fun _ => ?_, hisUp _, hrest, ?_⟩, ?_⟩
    · exact ⟨hstate, hstate ▸ Call.writes_of_turn hturn⟩
    · intro q hq
      rw [← Option.some.inj hq]
      exact hcall
    · exact .told [] (fun _ he => absurd he List.not_mem_nil) rfl fun _ => .inl ⟨hup, rfl⟩

theorem admits_open {act : Runner.Act} {jobs : JobRunner} (hup : w.up = true) (hguards : w.guards act = true)
    (hmove : w.jobs.step digest cfg ⟨m.now, act⟩ = some jobs) : ∀ e ∈ w.admission act jobs, w.Tells s e := by
  intro e he
  unfold admission at he
  split at he
  case h_2 => exact absurd he List.not_mem_nil
  case h_1 input environment admissionAllowed id =>
  split_ifs at he with hnew
  case neg => exact absurd he List.not_mem_nil
  case pos =>
  rw [List.mem_singleton.mp he]
  refine ⟨hup, ?_⟩
  by_contra hstopped
  have hclosed : admissionAllowed = false := by
    rw [Bool.not_eq_false] at hstopped
    simpa [guards, hstopped] using hguards
  subst hclosed
  -- `admit` refuses, or finds an earlier job: no id is drawn
  have hused : jobs.used = w.jobs.used := by
    simp only [JobRunner.step] at hmove
    split at hmove
    · cases hmove
    · split at hmove
      · exact congrArg JobRunner.used (Option.some.inj hmove).symm
      · rw [← Option.some.inj hmove]
      · next hadmits =>
        obtain ⟨-, ⟨_, _, -, -, -, heq⟩ | ⟨_, -, hkey, -⟩⟩ := JobRunner.admits_ok hadmits
        · cases heq
        · exact absurd (JobRunner.free_of_admissible hkey).2.2 (by decide)
  rw [hused] at hnew
  exact hnew.1 hnew.2

/-- The answer of the webhook is in the state that is to be written. -/
theorem Tracked.answered {ticket : ℕ} {call : Call} (h : Tracked P w s)
    (hrunning : w.running = some (ticket, call, .webhook)) (response : Option Bool) (now : Instant) :
    Tracked P { w with running := some (ticket, call, .writing
      { w.state with hardRestart := requestExecutorRestart webhook response, updatedAt := now }) } s := by
  have hup := h.up_of_running hrunning
  have hruns := h.runs hup
  unfold Runs at hruns
  rw [hrunning] at hruns
  obtain ⟨rfl, rfl, hstopped⟩ := hruns
  refine ⟨h.filed, fun _ => ⟨rfl, hstopped, hstopped, rfl, restartPhaseComplete_request webhook response w.state now⟩,
    fun hdown => absurd (hup.symm.trans hdown) (by decide), h.waiting, fun q hq => ?_⟩
  rw [← Option.some.inj hq]
  exact h.running (ticket, _, .webhook) hrunning

/-- A state that is written is the one that a restart takes. -/
theorem Tracked.written {ticket : ℕ} {call : Call} {next : EmergencyState} (h : Tracked P w s)
    (hrunning : w.running = some (ticket, call, .writing next)) : w.state = s ∧ call.Writes s next ∧
      Tracked P { w with file := some next.text, running := some (ticket, call, .written next)
                         log := call.event :: w.log } next := by
  have hup := h.up_of_running hrunning
  obtain ⟨hstate, hwrites⟩ : w.state = s ∧ call.Writes s next := by
    have hruns := h.runs hup
    unfold Runs at hruns
    rwa [hrunning] at hruns
  refine ⟨hstate, hwrites, .inl rfl, fun _ => ⟨rfl, hstate ▸ hwrites⟩, fun hdown => absurd (hup.symm.trans hdown) (by decide),
    h.waiting, fun q hq => ?_⟩
  rw [← Option.some.inj hq]
  exact h.running (ticket, call, .writing next) hrunning

/-- **One move.** -/
theorem Tracked.step (h : Tracked P w s) (hcall : ∀ ticket call, m.act = .call ticket call → P call)
    (hstep : w.step digest cfg webhook m = some w') : ∃ s', Tracked P w' s' ∧ Change P w w' m s s' := by
  have hnothing : ∀ e ∈ ([] : List Event), w.Tells s e := fun _ he => absurd he List.not_mem_nil
  have hnone : ∀ q : ℕ × Call × Await, none = some q → P q.2.1 := fun q hq => by cases hq
  have htell : ∀ {e : Event}, w.Tells s e → ∀ e' ∈ [e], w.Tells s e' := by
    intro e htells e' he'
    rwa [List.mem_singleton.mp he']
  unfold Server.step at hstep
  cases hact : m.act with
  | call ticket call =>
    simp only [hact] at hstep
    split_ifs at hstep with hup hrefused
    · cases hstep
      exact ⟨s, ⟨h.filed, h.runs, h.down, h.waiting, h.running⟩,
        .told [.returned ticket call false] (htell (.inl rfl)) rfl fun hup => .inl ⟨hup, rfl⟩⟩
    · cases hstep
      refine ⟨s, ⟨h.filed, h.runs, h.down, fun q hq => ?_, h.running⟩, .told [] hnothing rfl fun hup => .inl ⟨hup, rfl⟩⟩
      rcases List.mem_append.mp hq with hq | hq
      · exact h.waiting q hq
      · rw [List.mem_singleton.mp hq]
        exact hcall ticket call hact
  | turn =>
    simp only [hact] at hstep
    split at hstep
    case h_2 => cases hstep
    case h_1 ticket call rest hrunning hwaiting =>
    split_ifs at hstep with hup
    cases hstep
    exact ⟨s, h.begin hup hrunning hwaiting hact⟩
  | answered response =>
    simp only [hact] at hstep
    split at hstep
    case h_2 => cases hstep
    case h_1 ticket call hrunning =>
    cases hstep
    exact ⟨s, h.answered hrunning response m.now, .told [] hnothing rfl fun hup => .inl ⟨hup, rfl⟩⟩
  | write ok =>
    simp only [hact] at hstep
    split at hstep
    case h_2 => cases hstep
    case h_1 ticket call next hrunning =>
    obtain ⟨hstate, hwrites, hwritten⟩ := h.written hrunning
    split_ifs at hstep
    · cases hstep
      exact ⟨next, hwritten, .landed call next (h.running _ hrunning) hwrites (h.up_of_running hrunning) rfl rfl⟩
    · cases hstep
      exact ⟨s, ⟨h.filed, fun _ => hstate, fun _ => rfl, h.waiting, hnone⟩,
        .told [.returned ticket call false] (htell (.inl rfl)) rfl fun hup => .inl ⟨hup, rfl⟩⟩
  | finish =>
    simp only [hact] at hstep
    split at hstep
    case h_2 => cases hstep
    case h_1 ticket call next hrunning =>
    cases hstep
    obtain ⟨rfl, hwrites⟩ : next = s ∧ call.Writes w.state s := by
      have hruns := h.runs (h.up_of_running hrunning)
      unfold Runs at hruns
      rwa [hrunning] at hruns
    exact ⟨next, ⟨h.filed, fun _ => rfl, fun _ => rfl, h.waiting, hnone⟩, .settled ticket call w.state hwrites rfl rfl⟩
  | jobs act =>
    simp only [hact] at hstep
    split_ifs at hstep with hguards
    obtain ⟨jobs, hmove, rfl⟩ := Option.map_eq_some_iff.mp hstep
    obtain ⟨hup, hguards⟩ := Bool.and_eq_true_iff.mp hguards
    exact ⟨s, ⟨h.filed, h.runs, h.down, h.waiting, h.running⟩,
      .told (w.admission act jobs) (admits_open hup hguards hmove) rfl fun _ => .inl ⟨hup, rfl⟩⟩
  | crash landed =>
    simp only [hact] at hstep
    split_ifs at hstep with hup
    cases hstep
    exact ⟨s, ⟨h.filed, fun hup => absurd hup Bool.false_ne_true, fun _ => rfl, fun _ hq => absurd hq List.not_mem_nil,
      hnone⟩, .told [.crashed] (htell trivial) rfl fun hup => absurd hup Bool.false_ne_true⟩
  | boot =>
    simp only [hact] at hstep
    split_ifs at hstep with hup
    obtain ⟨s', hcreate, rfl⟩ := Option.map_eq_some_iff.mp hstep
    obtain rfl := create_filed h.filed hcreate
    have hidle := h.down (Bool.eq_false_iff.mpr hup)
    have hruns : Runs { w with up := true, state := s' } s' := by
      unfold Runs
      rw [hidle]
    exact ⟨s', ⟨h.filed, fun _ => hruns, fun _ => hidle, h.waiting, h.running⟩, .told [] hnothing rfl fun _ => .inr rfl⟩

end Server

end ADT.Emergency
