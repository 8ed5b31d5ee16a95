import ADT.Executor.Server

/-!
# Executor.Runs — one at a time, and for good

In every run of the executor its gate is held for exactly what is under way: a request that waits for its checks, one
turn, or one restore.  What became of an execution stays so, and its turn is sent one interrupt at most.
-/

namespace ADT.Executor

open Guarded Server
open Sqlite (Thrown)

variable {s t : Server} {id : Id} {m : Move} {e e' : Execution} {turn : Option Turn} {turn' : Turn}

/-- The turn has reported its ids. -/
def Execution.told (e : Execution) : Bool :=
  (e.threadId.filter (· ≠ "")).isSome && (e.turnId.filter (· ≠ "")).isSome

/-- How many interrupts were sent for an execution. -/
def Server.sent (s : Server) (id : Id) : ℕ := s.interrupts.countP (·.1 == id)

/-- What is known of an execution, where its turn stands, and how many interrupts were sent for it. -/
structure Execution.Sound (e : Execution) (turn : Option Turn) (sent : ℕ) : Prop where
  requested : e.cancellationRequested = true ↔ e.state = .cancelling ∨ e.state = .cancelled
  interrupts : sent = if e.interruptSent then 1 else 0
  asked : e.interruptSent = true → e.cancellationRequested = true
  answered : e.cancellationRequested = true → e.told = true → e.interruptSent = true
  ended : e.state.terminal = true ↔ turn = none ∨ turn = some .settled
  completed : e.state = .completed → e.result.any (·.isOk) = true

def Known : Option Execution → Option Turn → ℕ → Prop
  | none, turn, sent => turn = none ∧ sent = 0
  | some e, turn, sent => e.Sound turn sent

/-- The gate is held for exactly what is under way, and the executions are sound. -/
structure Sound (s : Server) : Prop where
  turns : ∀ id, (s.turns id).isSome = true ↔ s.active = some id
  execution : s.starting.length + s.active.toList.length = if s.owner = .execution then 1 else 0
  restore : s.restoring = if s.owner = .restore then 1 else 0
  known : ∀ id, Known (s.executions id) (s.turns id) (s.sent id)

/-- What never changes: an outcome, a cancellation that is left open, and a gate that was closed. -/
structure Stays (s t : Server) : Prop where
  outcome : ∀ id e, s.executions id = some e → e.state.terminal = true →
    ∃ e', t.executions id = some e' ∧ e'.state = e.state ∧ e'.result = e.result
  unresolved : ∀ id, s.turns id = some .unresolved → t.turns id = some .unresolved
  closed : s.owner = .closed → t.owner = .closed

theorem Stays.refl (s : Server) : Stays s s := ⟨fun _ e he _ => ⟨e, he, rfl, rfl⟩, fun _ h => h, fun h => h⟩

theorem Stays.trans {u : Server} (h : Stays s t) (h' : Stays t u) : Stays s u where
  outcome id e he hended := by
    obtain ⟨e', he', hstate, hresult⟩ := h.outcome id e he hended
    obtain ⟨e'', he'', hstate', hresult'⟩ := h'.outcome id e' he' (by rwa [hstate])
    exact ⟨e'', he'', hstate'.trans hstate, hresult'.trans hresult⟩
  unresolved id ht := h'.unresolved id (h.unresolved id ht)
  closed ht := h'.closed (h.closed ht)

theorem sound_initial : Sound initial := ⟨fun id => by simp [initial], rfl, rfl, fun _ => ⟨rfl, rfl⟩⟩

theorem Sound.idle (h : Sound s) (hidle : s.owner ≠ .execution) : s.starting = [] ∧ s.active = none := by
  have hcount := h.execution
  rw [if_neg hidle] at hcount
  refine ⟨List.length_eq_zero_iff.1 (by omega), ?_⟩
  cases hactive : s.active with
  | none => rfl
  | some id => simp [hactive] at hcount

theorem Sound.found (h : Sound s) (he : s.executions id = some e) : e.Sound (s.turns id) (s.sent id) := by
  have hknown := h.known id
  rwa [he] at hknown

/-! ### What a move does -/

theorem Sound.gate (h : Sound s)
    (ht : t = { s with owner := t.owner, starting := t.starting, restoring := t.restoring })
    (hexecution : t.starting.length + s.active.toList.length = if t.owner = .execution then 1 else 0)
    (hrestore : t.restoring = if t.owner = .restore then 1 else 0)
    (hclosed : s.owner = .closed → t.owner = .closed) : Sound t ∧ Stays s t := by
  rw [ht]
  exact ⟨⟨h.turns, hexecution, hrestore, h.known⟩, fun _ e he _ => ⟨e, he, rfl, rfl⟩, fun _ hturn => hturn,
    hclosed⟩

theorem known_write (h : ∀ id, Known (s.executions id) (s.turns id) (s.sent id)) {sent : List (String × String)}
    (he : e.Sound turn (s.sent id + sent.length)) (id' : Id) :
    Known ((s.write id e turn sent).executions id') ((s.write id e turn sent).turns id')
      ((s.write id e turn sent).sent id') := by
  have hsent : (s.write id e turn sent).sent id' = s.sent id' + (sent.map (id, ·)).countP (·.1 == id') := by
    rw [Nat.add_comm]
    exact List.countP_append
  rw [hsent, List.countP_map]
  by_cases hid : id' = id
  · subst hid
    simpa [Server.write, Function.comp_def, Known] using he
  · simpa [Server.write, Function.comp_def, hid, beq_false_of_ne (Ne.symm hid)] using h id'

theorem stays_write {sent : List (String × String)}
    (he : ∀ old, s.executions id = some old → old.state.terminal = true → e.state = old.state ∧ e.result = old.result)
    (hturn : s.turns id = some .unresolved → turn = some .unresolved) :
    Stays s (s.write id e turn sent) := by
  refine ⟨fun id' old hold hended => ?_, fun id' ht => ?_, fun hc => hc⟩ <;> by_cases hid : id' = id
  · subst hid
    exact ⟨e, Function.update_self .., he old hold hended⟩
  · exact ⟨old, (Function.update_of_ne hid ..).trans hold, rfl, rfl⟩
  · subst hid
    exact (Function.update_self ..).trans (hturn ht)
  · exact (Function.update_of_ne hid ..).trans ht

theorem Sound.write (h : Sound s) (hold : s.executions id = some e) (sent : List (String × String))
    (he : e'.Sound turn (s.sent id + sent.length)) (hturn : turn.isSome = (s.turns id).isSome)
    (hstate : e.state.terminal = true → e'.state = e.state ∧ e'.result = e.result)
    (hopen : s.turns id = some .unresolved → turn = some .unresolved) :
    Sound (s.write id e' turn sent) ∧ Stays s (s.write id e' turn sent) := by
  refine ⟨⟨fun id' => ?_, h.execution, h.restore, known_write h.known he⟩,
    stays_write (fun old hsame hended => ?_) hopen⟩
  · rw [show (s.write id e' turn sent).active = s.active from rfl, ← h.turns id']
    by_cases hid : id' = id <;> simp [Server.write, hid, hturn]
  · obtain rfl := Option.some.inj (hold.symm.trans hsame)
    exact hstate hended

theorem reserve_ok {next owner owner' : Owner} (h : Owner.reserve next owner = .ok owner') :
    owner = .idle ∧ owner' = next := by
  unfold Owner.reserve at h
  split at h
  · exact ⟨‹_›, (Except.ok.inj h).symm⟩
  · cases h

section

variable (h : Sound s)

include h

theorem sound_start (body : Option Json) :
    Sound ((s.start body).toOption.getD s) ∧ Stays s ((s.start body).toOption.getD s) := by
  have hrefused : Sound s ∧ Stays s s := ⟨h, .refl s⟩
  unfold Server.start
  cases howner : s.owner.reserveExecution with
  | error e => exact hrefused
  | ok owner =>
    obtain ⟨hidle, rfl⟩ := reserve_ok howner
    obtain ⟨hstarting, hactive⟩ := h.idle (by simp [hidle])
    have hrestore := h.restore
    cases hrequest : if s.active.isSome = true then .error runnerBusy else parseStart body with
    | error e => exact hrefused
    | ok r =>
      show Sound { s with owner := .execution, starting := r :: s.starting } ∧ Stays s _
      exact h.gate rfl (by simp [hstarting, hactive]) (by simpa [hidle] using hrestore) (by simp [hidle])

theorem sound_restore (body : Option Json) :
    Sound ((s.restore body).toOption.getD s) ∧ Stays s ((s.restore body).toOption.getD s) := by
  have hrefused : Sound s ∧ Stays s s := ⟨h, .refl s⟩
  unfold Server.restore
  cases parseRestore body with
  | error e => exact hrefused
  | ok backupId =>
    cases howner : s.owner.reserveRestore with
    | error e => exact hrefused
    | ok owner =>
      obtain ⟨hidle, rfl⟩ := reserve_ok howner
      obtain ⟨hstarting, hactive⟩ := h.idle (by simp [hidle])
      have hrestore := h.restore
      show Sound { s with owner := .restore, restoring := s.restoring + 1 } ∧ Stays s _
      exact h.gate rfl (by simp [hstarting, hactive]) (by simpa [hidle] using hrestore) (by simp [hidle])

theorem sound_restored {outcome : Except Thrown Unit} (hs : s.restored outcome = some t) :
    Sound t ∧ Stays s t := by
  simp only [Server.restored] at hs
  split at hs
  · cases hs
  · rename_i hone
    cases hs
    have hrestore := h.restore
    have howner : s.owner = .restore := by
      by_contra hno
      exact hone (by rw [hrestore, if_neg hno])
    obtain ⟨hstarting, hactive⟩ := h.idle (by simp [howner])
    have hidle : s.owner.restored outcome ≠ .execution ∧ s.owner.restored outcome ≠ .restore := by
      rw [howner]
      unfold Owner.restored
      split
      · split <;> decide
      · decide
    exact h.gate rfl (by simp [hstarting, hactive, hidle]) (by rw [if_neg hidle.2, hrestore, if_pos howner])
      (by simp [howner])

/-- The checks of a start. -/
theorem sound_checked {n : ℕ} {checks : Except Thrown Unit} (hnew : s.executions id = none)
    (hs : s.checked id n checks = some t) : Sound t ∧ Stays s t := by
  obtain ⟨r, hr, hs⟩ := Option.bind_eq_some_iff.1 hs
  have hn : n < s.starting.length := (List.getElem?_eq_some_iff.1 hr).1
  have hexecution : s.owner = .execution := by
    by_contra hidle
    rw [(h.idle hidle).1] at hn
    exact absurd hn (Nat.not_lt_zero n)
  have hcount := h.execution
  rw [if_pos hexecution] at hcount
  have hrest : (s.starting.eraseIdx n).length = 0 := by
    rw [List.length_eraseIdx_of_lt hn]
    omega
  have hactive : s.active = none := by
    cases hactive : s.active with
    | none => rfl
    | some id =>
      rw [hactive, Option.toList_some, List.length_singleton] at hcount
      omega
  have hrestore := h.restore
  dsimp only at hs
  split at hs
  · cases hs
    have hidle : s.owner.releaseExecution = .idle := by rw [hexecution]; rfl
    rw [hidle]
    exact h.gate rfl (by simp [hrest, hactive]) (by simpa [hexecution] using hrestore) (by simp [hexecution])
  · rename_i managed _
    cases hs
    obtain ⟨hturn, hsent⟩ : s.turns id = none ∧ s.sent id = 0 := by
      have hknown := h.known id
      rwa [hnew] at hknown
    have hbegins : ({} : Execution).Sound (some (.running managed)) (s.sent id + 0) := by
      rw [hsent]
      exact ⟨by simp, rfl, by simp, by simp, by simp [ExecutionState.terminal], by simp⟩
    have hstays : Stays s (s.write id {} (some (.running managed)) []) :=
      stays_write (fun old hold => by cases hnew.symm.trans hold) fun ht => by cases hturn.symm.trans ht
    refine ⟨⟨fun id' => ?_, by simp [Server.write, hexecution, hrest], hrestore, known_write h.known hbegins⟩,
      hstays.outcome, hstays.unresolved, hstays.closed⟩
    have hnone : s.turns id' = none := by simpa [hactive] using h.turns id'
    by_cases hid : id' = id
    · simp [Server.write, hid]
    · simp [Server.write, hid, hnone, Ne.symm hid]

theorem sound_conclude (he : s.executions id = some e) (result : TurnResult)
    (hturn : s.turns id = some turn') (hsettled : turn' ≠ .settled) (hunresolved : turn' ≠ .unresolved) :
    Sound (s.conclude id e result) ∧ Stays s (s.conclude id e result) := by
  have hknown := h.found he
  have hopen : e.state.terminal = false := by
    rw [Bool.eq_false_iff, ne_eq, hknown.ended, hturn]
    simpa using hsettled
  have hended : ∀ {P : Prop}, e.state.terminal = true → P := fun hended => by simp [hopen] at hended
  have hgoes : ∀ new : Turn, s.turns id = some .unresolved → some new = some .unresolved := fun new ht =>
    absurd (Option.some.inj (hturn.symm.trans ht)) hunresolved
  have hsome : ∀ new : Turn, (some new).isSome = (s.turns id).isSome := fun new => by
    rw [hturn]
    rfl
  unfold conclude
  dsimp only
  split
  · refine h.write he [] ⟨hknown.requested, hknown.interrupts, hknown.asked, hknown.answered, ?_, fun hc => ?_⟩
      (hsome _) hended (hgoes _)
    · simp [hopen]
    · exact hended (by rw [show e.state = .completed from hc]; rfl)
  · refine h.write he [] ⟨?_, hknown.interrupts, hknown.asked, hknown.answered, ?_, ?_⟩ (hsome _) hended (hgoes _)
    all_goals
      dsimp only
      cases e.cancellationRequested <;> cases result <;> simp [TurnResult.isOk, ExecutionState.terminal]

theorem sound_cancel (id : Id) :
    Sound ((s.cancel id).toOption.getD s) ∧ Stays s ((s.cancel id).toOption.getD s) := by
  have hrefused : Sound s ∧ Stays s s := ⟨h, .refl s⟩
  unfold Server.cancel
  split
  · exact hrefused
  · rename_i e he
    split
    · rename_i hrunning
      have hknown := h.found he
      have hasked : e.cancellationRequested = false := by
        simpa [hrunning] using hknown.requested
      have hsent : e.interruptSent = false := by
        simpa [hasked] using hknown.asked
      have hcount : s.sent id = 0 := by simpa [hsent] using hknown.interrupts
      have hopen : ¬(s.turns id = none ∨ s.turns id = some .settled) := by
        rw [← hknown.ended, hrunning]
        exact Bool.false_ne_true
      have hended : ∀ {P : Prop}, e.state.terminal = true → P := fun hended => by
        simp [hrunning, ExecutionState.terminal] at hended
      dsimp only
      split
      · rw [if_neg (by simp [hsent])]
        refine h.write he [_] ⟨by simp, by simp [hcount], fun _ => rfl, fun _ _ => rfl, ?_, by simp⟩ rfl hended
          fun ht => ht
        simpa [ExecutionState.terminal] using hopen
      · rename_i hnone
        refine h.write he [] ⟨by simp, by simp [hcount, hsent], fun _ => rfl, fun _ htold => ?_, ?_, by simp⟩ rfl
          hended fun ht => ht
        · obtain ⟨hthread, hturn⟩ := Bool.and_eq_true_iff.1 htold
          obtain ⟨threadId, hthread⟩ := Option.isSome_iff_exists.1 hthread
          obtain ⟨turnId, hturn⟩ := Option.isSome_iff_exists.1 hturn
          exact (hnone threadId turnId hthread hturn).elim
        · simpa [ExecutionState.terminal] using hopen
    · exact hrefused

theorem sound_turnOver {result : Option TurnResult} (hs : s.turnOver id result = some t) :
    Sound t ∧ Stays s t := by
  obtain ⟨e, he, hs⟩ := Option.bind_eq_some_iff.1 hs
  have hknown := h.found he
  split at hs
  · have hturn : s.turns id = some (.running true) := ‹_›
    cases hs
    have hended := hknown.ended
    rw [hturn] at hended
    exact h.write he [] { hknown with ended := by simpa using hended } (by rw [hturn]; rfl) (fun _ => ⟨rfl, rfl⟩)
      fun ht => by cases hturn.symm.trans ht
  · have hturn : s.turns id = some (.running _) := ‹_›
    cases hs
    exact sound_conclude h he _ hturn (by simp) (by simp)
  · cases hs

theorem sound_settle (hs : s.settle id = some t) : Sound t ∧ Stays s t := by
  obtain ⟨e, he, hs⟩ := Option.bind_eq_some_iff.1 hs
  dsimp only at hs
  split at hs
  · rename_i hturn
    cases hs
    have hknown := h.found he
    have hactive : s.active = some id := (h.turns id).1 (by rw [hturn]; rfl)
    have hexecution : s.owner = .execution := by
      by_contra hidle
      cases hactive.symm.trans (h.idle hidle).2
    have hstarting : s.starting = [] := by
      have hcount := h.execution
      rw [if_pos hexecution, hactive, Option.toList_some, List.length_singleton] at hcount
      exact List.length_eq_zero_iff.1 (by omega)
    have hidle : s.owner.releaseExecution = .idle := by
      rw [hexecution]
      rfl
    have hended := hknown.ended
    rw [hturn] at hended
    have hover : e.Sound none (s.sent id + 0) := { hknown with ended := by simpa using hended }
    have hstays : Stays s (s.write id e none []) :=
      stays_write (fun old hold _ => by
        obtain rfl := Option.some.inj (he.symm.trans hold)
        exact ⟨rfl, rfl⟩) fun ht => by cases hturn.symm.trans ht
    have hrestore := h.restore
    rw [if_pos hactive, hidle]
    refine ⟨⟨fun id' => ?_, by simp [Server.write, hstarting], by simpa [Server.write, hexecution] using hrestore,
      known_write h.known hover⟩, hstays.outcome, hstays.unresolved, fun hc => by cases hexecution.symm.trans hc⟩
    have hthis := h.turns id'
    by_cases hid : id' = id
    · simp [Server.write, hid]
    · simpa [Server.write, hid, hactive, Ne.symm hid] using hthis
  · cases hs

/-- **Step.** Every move keeps the gate held for what is under way, and what never changes. -/
theorem sound_step (hfresh : fresh s m = true) (hs : step s m = some t) : Sound t ∧ Stays s t := by
  cases m with
  | start body =>
    cases hs
    exact sound_start h body
  | checked n checks id => exact sound_checked h (by simpa [fresh] using hfresh) hs
  | onStarted id threadId turnId =>
    obtain ⟨e, he, hs⟩ := Option.bind_eq_some_iff.1 hs
    cases hs
    have hknown := h.found he
    dsimp only
    split
    · rename_i hsends
      simp only [Bool.and_eq_true, Bool.not_eq_true'] at hsends
      have hcount : s.sent id = 0 := by simpa [hsends.2] using hknown.interrupts
      exact h.write he [_] { hknown with
        interrupts := by simp [hcount]
        asked := fun _ => hsends.1
        answered := fun _ _ => rfl } rfl (fun _ => ⟨rfl, rfl⟩) fun ht => ht
    · rename_i hquiet
      refine h.write he [] { hknown with answered := fun hasked _ => ?_ } rfl (fun _ => ⟨rfl, rfl⟩) fun ht => ht
      by_contra hsent
      exact hquiet (by simp_all)
  | onActivity id category =>
    obtain ⟨e, he, hs⟩ := Option.bind_eq_some_iff.1 hs
    cases hs
    exact h.write he [] { h.found he with } rfl (fun _ => ⟨rfl, rfl⟩) fun ht => ht
  | turnOver id result => exact sound_turnOver h hs
  | inspected id holds =>
    obtain ⟨e, he, hs⟩ := Option.bind_eq_some_iff.1 hs
    split at hs
    · rename_i hturn
      cases hs
      exact sound_conclude h he _ hturn (by simp) (by simp)
    · cases hs
  | settle id => exact sound_settle h hs
  | cancel id =>
    cases hs
    exact sound_cancel h id
  | restore body =>
    cases hs
    exact sound_restore h body
  | restored outcome => exact sound_restored h hs

end

theorem sound_reached (hs : Sound s) (h : Reaches s t) : Sound t ∧ Stays s t := by
  induction h with
  | refl => exact ⟨hs, .refl s⟩
  | tail _ good move ih =>
    obtain ⟨ht, hstays⟩ := ih
    exact ⟨(sound_step ht good move).1, hstays.trans (sound_step ht good move).2⟩

/-! ### Runs -/

/-- **One at a time.** In every state of the executor at most one turn is in flight; while a restore is under way no turn
is, and no request for one waits; and an execution that has not ended has its turn in flight, and holds the gate.  Once a
failed restore has closed the gate nothing is ever under way again. -/
theorem one_at_a_time (h : Reaches initial s) :
    (∀ id id', (s.turns id).isSome = true → (s.turns id').isSome = true → id = id') ∧
      s.starting.length + s.active.toList.length + s.restoring ≤ 1 ∧
      (s.restoring = 1 → ∀ id, s.turns id = none) ∧
      (∀ id e, s.executions id = some e → e.state.terminal = false →
        s.active = some id ∧ (s.turns id).isSome = true ∧ s.owner = .execution) ∧
      (s.owner = .closed → ∀ t, Reaches s t →
        t.starting = [] ∧ t.active = none ∧ t.restoring = 0 ∧ ∀ id, t.turns id = none) := by
  obtain ⟨hs, -⟩ := sound_reached sound_initial h
  have hquiet : ∀ t, Sound t → t.active = none → ∀ id, t.turns id = none := fun t ht hactive id => by
    simpa [hactive] using ht.turns id
  refine ⟨fun id id' hid hid' => ?_, ?_, fun hrestoring => ?_, fun id e he hopen => ?_, fun hclosed t ht => ?_⟩
  · exact Option.some.inj (((hs.turns id).1 hid).symm.trans ((hs.turns id').1 hid'))
  · rw [hs.execution, hs.restore]
    cases s.owner <;> decide
  · have howner : s.owner ≠ .execution := fun howner => by simp [hs.restore, howner] at hrestoring
    exact hquiet s hs (hs.idle howner).2
  · have hknown := hs.found he
    have hturn : (s.turns id).isSome = true := by
      rw [Option.isSome_iff_ne_none]
      exact fun hnone => by simp [hknown.ended.2 (.inl hnone)] at hopen
    have hactive := (hs.turns id).1 hturn
    refine ⟨hactive, hturn, ?_⟩
    by_contra howner
    cases hactive.symm.trans (hs.idle howner).2
  · obtain ⟨ht, hstays⟩ := sound_reached hs ht
    have hclosed := hstays.closed hclosed
    obtain ⟨hstarting, hactive⟩ := ht.idle (by simp [hclosed])
    exact ⟨hstarting, hactive, by simp [ht.restore, hclosed], hquiet t ht hactive⟩

/-- A task with a checkout of its own. -/
def started : Move :=
  .start (some (.obj [("cwd", .str "/workspaces/a"), ("prompt", .str "go"), ("sandbox", .str "workspace-write")]))

/-- An execution that is cancelled before its turn has started, and a restore that is asked for meanwhile. -/
def cancelledEarly : List Move :=
  [started, .checked 0 (.ok ()) "a", .cancel "a", .onStarted "a" "thread" "turn",
    .restore (some (.obj [("backupId", .str "latest")]))]

theorem one_at_a_time_cancelled :
    ∃ s, Reaches initial s ∧ s.active = some "a" ∧ s.starting.length + s.active.toList.length + s.restoring ≤ 1 := by
  have hrun : (run step fresh initial cancelledEarly).any (fun s => s.active = some "a") = true := by decide +kernel
  obtain ⟨s, hs, hactive⟩ := reaches_of_any _ _ _ hrun
  exact ⟨s, hs, by simpa using hactive, (one_at_a_time hs).2.1⟩

/-- **For good.** What became of an execution that has ended stays so in every later state; it is cancelled if and only if
its cancellation was requested before its end, and completed only with a result that is.  Its turn is sent one interrupt
at most, and only for a cancellation; one whose turn has reported its ids was sent.  A cancellation that was left open
holds the gate for good. -/
theorem outcome_for_good (h : Reaches initial s) (h' : Reaches s t) (he : s.executions id = some e) :
    (e.state.terminal = true → ∃ e', t.executions id = some e' ∧ e'.state = e.state ∧ e'.result = e.result) ∧
      (e.cancellationRequested = true ↔ e.state = .cancelling ∨ e.state = .cancelled) ∧
      (e.state = .completed → e.result.any (·.isOk) = true) ∧
      s.sent id = (if e.interruptSent then 1 else 0) ∧ (e.interruptSent = true → e.cancellationRequested = true) ∧
      (e.cancellationRequested = true → e.told = true → e.interruptSent = true) ∧
      (s.turns id = some .unresolved → t.turns id = some .unresolved ∧ t.owner = .execution) := by
  obtain ⟨hs, -⟩ := sound_reached sound_initial h
  obtain ⟨ht, hstays⟩ := sound_reached hs h'
  have hknown := hs.found he
  refine ⟨hstays.outcome id e he, hknown.requested, hknown.completed, hknown.interrupts, hknown.asked, hknown.answered,
    fun hopen => ?_⟩
  have hturn := hstays.unresolved id hopen
  refine ⟨hturn, ?_⟩
  by_contra howner
  cases ((ht.turns id).1 (by rw [hturn]; rfl)).symm.trans (ht.idle howner).2

/-- The next execution is active, and the first one is cancelled still. -/
theorem outcome_for_good_cancelled : ∃ s t e, Reaches initial s ∧ Reaches s t ∧ s.executions "a" = some e ∧
    t.active = some "b" ∧ ∃ e', t.executions "a" = some e' ∧ e'.state = .cancelled ∧ e'.result = e.result := by
  have hrun : (run step fresh initial (cancelledEarly ++ [.turnOver "a" none, .settle "a"])).any (fun s =>
      (s.executions "a").any (·.state = .cancelled) &&
        (run step fresh s [started, .checked 0 (.ok ()) "b"]).any (·.active = some "b")) = true := by decide +kernel
  obtain ⟨s, hs, hboth⟩ := reaches_of_any _ _ _ hrun
  obtain ⟨hcancelled, hnext⟩ := Bool.and_eq_true_iff.1 hboth
  obtain ⟨t, ht, hactive⟩ := reaches_of_any _ _ _ hnext
  obtain ⟨e, he, hstate⟩ := (Option.any_eq_true ..).1 hcancelled
  have hstate : e.state = .cancelled := by simpa using hstate
  obtain ⟨e', he', hsame, hresult⟩ := (outcome_for_good hs ht he).1 (by rw [hstate]; rfl)
  exact ⟨s, t, e, hs, ht, he, by simpa using hactive, e', he', hsame.trans hstate, hresult⟩

end ADT.Executor
