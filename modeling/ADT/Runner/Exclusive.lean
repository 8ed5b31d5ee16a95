import ADT.Runner.Ledger

/-!
# Runner.Exclusive — the operations that the Runner runs alone

A job is being admitted only while its `start` is the operation under way, and `reconcileActive` has at most one write
under way, also only then.
-/

namespace ADT.Runner

open Guarded

namespace Job

variable {bounded : Bool} {now : Instant} {j : Job} {m : JobMove} {o : Outcome}

/-- The writes of `reconcileActive` that are under way. -/
def reconciles (j : Job) : ℕ := (j.writes.map (·.awaits)).count .reconcile

theorem reconciles_persist (j : Job) {a : Awaits} (ha : a ≠ .reconcile) : (persist now j a).reconciles = j.reconciles := by
  simp [reconciles, persist, List.count_append, ha]

variable {rest : List Write}

theorem reconciles_cons {w : Write} (h : j.writes = w :: rest) (ha : w.awaits ≠ .reconcile) :
    (rest.map (·.awaits)).count .reconcile = j.reconciles := by
  simp [reconciles, h, ha]

theorem reconciles_terminate (j : Job) (task : Task) : (terminate now j task).reconciles = j.reconciles :=
  reconciles_persist { j with task := task, terminalPending := true } (by simp)

/-- What a move does to the operation that the Runner runs alone. -/
inductive Ends (j : Job) (m : JobMove) (o : Outcome) : Prop
  | goesOn (hends : o.ends = false) (hsame : o.job.reconciles = j.reconciles)
  | admission (hends : o.ends = true) (htask : j.task = .admitting) (hleft : o.job.task ≠ .admitting)
      (hsame : o.job.reconciles = j.reconciles) (hkept : o.job.kept = true → o.stored.isSome = true)
  | reconcile (hends : o.ends = true) (hless : o.job.reconciles + 1 = j.reconciles) (hlast : j.EndsReconcile m)

theorem ends_of_wake {ok : Bool} {w : Write} (hsane : j.Sane) (h : j.writes = w :: rest)
    (o : Outcome) (ho : o = { wake now { j with writes := rest, broken := j.broken || !(ok && !j.broken && w.record.fits) }
      w.awaits (ok && !j.broken && w.record.fits) with
        stored := if ok && !j.broken && w.record.fits then some w.record else none }) : Ends j (.write ok) o := by
  subst ho
  cases ha : w.awaits with
  | admission =>
    have htask := (hsane.awaiting h (by rw [ha]; rfl)).1
    rw [ha] at htask
    have hcount := reconciles_cons h (by rw [ha]; simp)
    cases hlanded : (ok && !j.broken && w.record.fits) with
    | true => exact .admission rfl (admitting_of_awaits htask) (by simp [wake]) hcount fun _ => rfl
    | false => exact .admission rfl (admitting_of_awaits htask) (by simp [wake]) hcount fun h => by cases h
  | running =>
    have hcount := reconciles_cons h (by rw [ha]; simp)
    simp only [wake, afterRunning]
    split_ifs
    · exact .goesOn rfl hcount
    · exact .goesOn rfl hcount
    · exact .goesOn rfl ((reconciles_terminate _ _).trans hcount)
    · exact .goesOn rfl ((reconciles_terminate _ _).trans hcount)
    · exact .goesOn rfl hcount
    · exact .goesOn rfl hcount
  | started => exact .goesOn rfl (reconciles_cons h (by rw [ha]; simp))
  | terminal =>
    have hcount := reconciles_cons h (by rw [ha]; simp)
    have hsettled : ∀ {job : Job} (landed : Bool), (job.settled landed).reconciles = job.reconciles := fun landed => by
      rw [reconciles, (settled_fields landed).1]
      rfl
    simp only [wake, afterTerminal]
    split <;> exact .goesOn rfl ((hsettled _).trans hcount)
  | cancel =>
    refine .goesOn rfl ?_
    rw [reconciles, wake, (settled_fields _).1]
    exact reconciles_cons h (by rw [ha]; simp)
  | reconcile =>
    refine .reconcile rfl ?_ ⟨ok, w, rest, rfl, h, ha⟩
    rw [reconciles, wake, (settled_fields _).1]
    simp [reconciles, h, ha]

theorem ends_of_effect (hsane : j.Sane) (h : Effect bounded now j m o) : Ends j m o := by
  cases h with
  | write hwrites => exact ends_of_wake hsane hwrites _ rfl
  | prepareReady _ _ => exact .goesOn rfl rfl
  | valid _ _ => exact .goesOn rfl (reconciles_persist _ (by simp))
  | started _ => exact .goesOn rfl (reconciles_persist _ (by simp))
  | late _ _ => exact .goesOn rfl rfl
  | returned _ _ => exact .goesOn rfl rfl
  | rejectedStarted _ _ => exact .goesOn rfl rfl
  | proceedFailed _ _ _ => exact .goesOn rfl rfl
  | proceedForced _ _ _ _ => exact .goesOn rfl rfl
  | forced _ _ _ => exact .goesOn rfl rfl
  | stuck _ _ _ => exact .goesOn rfl rfl
  | quiesced _ _ => exact .goesOn rfl rfl
  | cancelAgain _ _ => exact .goesOn rfl rfl
  | cancelled _ _ _ => exact .goesOn rfl (reconciles_persist _ (by simp))
  | @concluded result _ _ _ _ _ =>
    refine .goesOn rfl ((reconciles_terminate _ _).trans ?_)
    rw [reconciles, (conclude_fields result).1]
    rfl
  | @observed result _ _ =>
    refine .goesOn rfl ((reconciles_terminate _ _).trans ?_)
    rw [reconciles, (conclude_fields result).1]
    rfl
  | _ => exact .goesOn rfl (reconciles_terminate _ _)

theorem Ends.reconciles_le (h : Ends j m o) : o.job.reconciles ≤ j.reconciles := by
  cases h with
  | goesOn _ hsame => omega
  | admission _ _ _ hsame _ => omega
  | reconcile _ hless _ => omega

theorem reconciles_reconcile (reason : JobFailureReason) :
    (j.reconcile now reason).job.reconciles = j.reconciles + 1 := by
  simp [reconciles, reconcile, persistTerminal, persist, fail]

end Job

namespace JobRunner

variable {digest : String → Digest} {cfg : Config} {now : Instant} {w w' : JobRunner} {m : Move}

variable (digest) in
structure Exclusive (w : JobRunner) : Prop where
  admitting : ∀ {id j}, w.jobs id = some j → j.task = .admitting → ∃ input, w.exclusive = some (.start input id)
  asked : ∀ {id input}, w.exclusive = some (.start input id) → input.wellFormed = true ∧
    ∃ j, w.jobs id = some j ∧ j.record.idempotencyDigest = digest input.idempotencyKey ∧
      j.record.fingerprint = fingerprint digest input
  quiet : w.exclusive ≠ some .reconcileActive → ∀ {id j}, w.jobs id = some j → j.reconciles = 0
  one : ∀ {id j}, w.jobs id = some j → j.reconciles ≤ 1
  single : ∀ {id id' j j'}, w.jobs id = some j → w.jobs id' = some j' → j.reconciles ≠ 0 → j'.reconciles ≠ 0 → id = id'
  closed : w.phase ≠ .up → w.exclusive = none

theorem exclusive_of_still (hnone : w.exclusive = none)
    (hstill : ∀ {id j}, w.jobs id = some j → j.task ≠ .admitting ∧ j.reconciles = 0) : Exclusive digest w where
  admitting hj htask := absurd htask (hstill hj).1
  asked h := absurd (hnone.symm.trans h) (by simp)
  quiet _ _ _ hj := (hstill hj).2
  one hj := by rw [(hstill hj).2]; exact Nat.zero_le 1
  single hj _ h := absurd (hstill hj).2 h
  closed _ := hnone

section Apply

variable {id : JobId} {job : Job} {move : JobMove} {o : Outcome}

theorem Exclusive.goesOn_start (hw : Exclusive digest w) (hjob : w.jobs id = some job) (hends : Job.Ends job move o)
    {input : StartInput} {id' : JobId} (hstart : w.exclusive = some (.start input id'))
    (hadmitting : id' = id → o.job.task = .admitting) : o.ends = false := by
  cases hends with
  | goesOn hends _ => exact hends
  | admission _ htask hleft _ _ =>
    obtain ⟨input', hstart'⟩ := hw.admitting hjob htask
    rw [hstart] at hstart'
    cases hstart'
    exact absurd (hadmitting rfl) hleft
  | reconcile _ hless _ =>
    have hnone := hw.quiet (by rw [hstart]; simp) hjob
    omega

theorem Exclusive.quiet_apply (hw : Exclusive digest w) (hjob : w.jobs id = some job) (hends : Job.Ends job move o)
    (hquiet : (w.apply id job o).exclusive ≠ some .reconcileActive) {id' : JobId} {j : Job}
    (hj : (w.apply id job o).jobs id' = some j) : j.reconciles = 0 := by
  by_cases hreconciles : w.exclusive = some .reconcileActive
  · -- the operation has ended with the write of `reconcileActive`
    have hended : o.ends = true := by
      by_contra hends
      simp [apply, hreconciles, hends] at hquiet
    cases hends with
    | goesOn hends _ => exact absurd (hends.symm.trans hended) (by simp)
    | admission _ htask _ _ _ =>
      obtain ⟨input, hstart⟩ := hw.admitting hjob htask
      rw [hreconciles] at hstart
      cases hstart
    | reconcile _ hlast _ =>
      have hone := hw.one hjob
      rcases update_jobs hj with ⟨rfl, rfl⟩ | ⟨hne, hj⟩
      · omega
      · by_contra hother
        exact hne (hw.single hj hjob hother (by omega))
  · rcases update_jobs hj with ⟨rfl, rfl⟩ | ⟨-, hj⟩
    · have hnone := hw.quiet hreconciles hjob
      have hless := hends.reconciles_le
      omega
    · exact hw.quiet hreconciles hj

/-- No move of a job lets two executions run. -/
theorem exclusive_apply (hw : Exclusive digest w) (hfiled : Filed (w.disk id) id job) (hjob : w.jobs id = some job)
    (heffect : Job.Effect cfg.boundedExecutionPlane now job move o) : Exclusive digest (w.apply id job o) := by
  have hends := Job.ends_of_effect hfiled.sane heffect
  have hidentity := (Job.kept_of_effect heffect).identity
  have hless := hends.reconciles_le
  refine ⟨fun {id' j} hj htask => ?_, fun {id' input} hstart => ?_, fun hquiet _ _ hj => hw.quiet_apply hjob hends hquiet hj,
    fun hj => ?_, fun {id₁ id₂ j j'} hj hj' h h' => ?_, fun hphase => ?_⟩
  · rcases update_jobs hj with ⟨rfl, rfl⟩ | ⟨hne, hj⟩
    · obtain ⟨hbefore, -, -⟩ := Job.entering_of_effect hfiled.entering hfiled.sane heffect htask
      obtain ⟨input, hstart⟩ := hw.admitting hjob hbefore
      have hgoes := hw.goesOn_start hjob hends hstart fun _ => htask
      exact ⟨input, by simpa [apply, hgoes] using hstart⟩
    · obtain ⟨input, hstart⟩ := hw.admitting hj htask
      have hgoes := hw.goesOn_start hjob hends hstart fun heq => absurd heq hne
      exact ⟨input, by simpa [apply, hgoes] using hstart⟩
  · have hstart : w.exclusive = some (.start input id') := by
      simp only [apply] at hstart
      split_ifs at hstart
      exact hstart
    obtain ⟨hform, j, hj, hdigest, hfingerprint⟩ := hw.asked hstart
    refine ⟨hform, ?_⟩
    by_cases heq : id' = id
    · subst heq
      rw [hjob] at hj
      cases hj
      exact ⟨o.job, Function.update_self .., (digest_of_identity hidentity).trans hdigest,
        (fingerprint_of_identity hidentity).trans hfingerprint⟩
    · exact ⟨j, (Function.update_of_ne heq _ _).trans hj, hdigest, hfingerprint⟩
  · rcases update_jobs hj with ⟨rfl, rfl⟩ | ⟨-, hj⟩
    · exact hless.trans (hw.one hjob)
    · exact hw.one hj
  · rcases update_jobs hj with ⟨rfl, rfl⟩ | ⟨-, hbefore⟩
    · rcases update_jobs hj' with ⟨rfl, -⟩ | ⟨-, hbefore'⟩
      · rfl
      · exact hw.single hjob hbefore' (by omega) h'
    · rcases update_jobs hj' with ⟨rfl, rfl⟩ | ⟨-, hbefore'⟩
      · exact hw.single hbefore hjob h (by omega)
      · exact hw.single hbefore hbefore' h h'
  · simp only [apply, hw.closed hphase, ite_self]

end Apply

variable {id : JobId}

theorem exclusive_reconcile {job : Job} {reason : JobFailureReason} (hw : Exclusive digest w)
    (hup : w.phase = .up) (hjob : w.jobs id = some job) (halone : w.exclusive = none) :
    Exclusive digest { w.apply id job (job.reconcile now reason) with exclusive := some .reconcileActive } := by
  have hquiet : ∀ {id j}, w.jobs id = some j → j.reconciles = 0 := hw.quiet (by rw [halone]; simp)
  have hcount : ∀ {id' j}, (w.apply id job (job.reconcile now reason)).jobs id' = some j →
      id' = id ∧ j.reconciles = 1 ∨ id' ≠ id ∧ j.reconciles = 0 := by
    intro id' j hj
    rcases update_jobs hj with ⟨rfl, rfl⟩ | ⟨hne, hj⟩
    · exact .inl ⟨rfl, by rw [Job.reconciles_reconcile, hquiet hjob]⟩
    · exact .inr ⟨hne, hquiet hj⟩
  refine ⟨fun hj htask => ?_, (fun h => nomatch h), fun h => absurd rfl h, fun hj => ?_, fun hj hj' h h' => ?_,
    fun hphase => absurd hup hphase⟩
  · have hbefore : ∃ id j, w.jobs id = some j ∧ j.task = .admitting := by
      rcases update_jobs hj with ⟨-, rfl⟩ | ⟨-, hj⟩
      · exact ⟨id, job, hjob, htask⟩
      · exact ⟨_, _, hj, htask⟩
    obtain ⟨id', j', hj', htask'⟩ := hbefore
    obtain ⟨input, hstart⟩ := hw.admitting hj' htask'
    rw [halone] at hstart
    cases hstart
  · rcases hcount hj with ⟨-, h⟩ | ⟨-, h⟩ <;> omega
  · rcases hcount hj with ⟨rfl, -⟩ | ⟨-, hzero⟩
    · rcases hcount hj' with ⟨rfl, -⟩ | ⟨-, hzero⟩
      · rfl
      · exact absurd hzero h'
    · exact absurd hzero h

theorem exclusive_take {value : JobRecord} {ok : Bool} (hnone : w.exclusive = none)
    (hstill : ∀ {id j}, w.jobs id = some j → j.task ≠ .admitting ∧ j.reconciles = 0) :
    (w.take cfg now id value ok).exclusive = none ∧
      ∀ {id' j}, (w.take cfg now id value ok).jobs id' = some j → j.task ≠ .admitting ∧ j.reconciles = 0 := by
  have hinsert : ∀ {r : JobRecord} {task : Task} {id' j}, task ≠ .admitting →
      (w.insert id (.loaded r task)).jobs id' = some j → j.task ≠ .admitting ∧ j.reconciles = 0 := by
    intro r task id' j htask hj
    rcases update_jobs hj with ⟨-, rfl⟩ | ⟨-, hj⟩
    · exact ⟨htask, rfl⟩
    · exact hstill hj
  unfold take
  split_ifs
  · exact ⟨rfl, fun hj => by cases hj⟩
  · exact ⟨hnone, hinsert (by simp)⟩
  · exact ⟨rfl, fun hj => by cases hj⟩
  · exact ⟨hnone, hinsert (by simp)⟩
  · exact ⟨hnone, hinsert (by simp)⟩
  · exact ⟨rfl, fun hj => by cases hj⟩

theorem still_of_closed (hledger : Ledger w) (hphase : w.phase ≠ .up) {j : Job} (hj : w.jobs id = some j) :
    j.task ≠ .admitting ∧ j.reconciles = 0 := by
  have hwrites := (hledger.still hphase hj).1
  refine ⟨fun htask => ?_, by rw [Job.reconciles, hwrites]; rfl⟩
  obtain ⟨write, hhead, -⟩ := (hledger.filed hj).entering htask
  rw [hwrites] at hhead
  cases hhead

theorem exclusive_crashed (landed : JobId → Bool) : Exclusive digest (w.crashed landed) :=
  exclusive_of_still rfl fun hj => by cases hj

theorem exclusive_enter {input : StartInput} {key : EnvironmentKey} (hw : Exclusive digest w)
    (hup : w.phase = .up) (halone : w.exclusive = none) (hform : input.wellFormed = true) :
    Exclusive digest (w.enter digest now input key id) := by
  have hquiet : ∀ {id' j}, (w.enter digest now input key id).jobs id' = some j → j.reconciles = 0 := by
    intro id' j hj
    rcases update_jobs hj with ⟨-, rfl⟩ | ⟨-, hj⟩
    · rfl
    · exact hw.quiet (by rw [halone]; simp) hj
  refine ⟨fun {id' j} hj htask => ?_, fun h => ?_, fun _ _ _ hj => hquiet hj, fun hj => ?_, fun hj _ h => absurd (hquiet hj) h,
    fun hphase => absurd hup hphase⟩
  · rcases update_jobs hj with ⟨rfl, -⟩ | ⟨-, hj⟩
    · exact ⟨input, rfl⟩
    · obtain ⟨input', hstart⟩ := hw.admitting hj htask
      rw [halone] at hstart
      cases hstart
  · cases h
    exact ⟨hform, _, Function.update_self .., rfl, rfl⟩
  · rw [hquiet hj]
    exact Nat.zero_le 1

theorem exclusive_step (hledger : Ledger w) (hw : Exclusive digest w) (h : w.step digest cfg m = some w') :
    Exclusive digest w' := by
  cases change_of_step h with
  | refused => exact hw
  | replayed => exact ⟨hw.admitting, hw.asked, hw.quiet, hw.one, hw.single, hw.closed⟩
  | entered _ hup halone hadmits _ => exact exclusive_enter hw hup halone (admits_wellFormed hadmits)
  | moved _ _ hjob heffect => exact exclusive_apply hw (hledger.filed hjob) hjob heffect
  | reconciled _ hup halone _ hjob => exact exclusive_reconcile hw hup hjob halone
  | reported => exact ⟨hw.admitting, hw.asked, hw.quiet, hw.one, hw.single, hw.closed⟩
  | crashed => exact exclusive_crashed _
  | booted _ hdown =>
    exact ⟨hw.admitting, hw.asked, hw.quiet, hw.one, hw.single, fun _ => hw.closed (by rw [hdown]; simp)⟩
  | loaded _ hloading _ _ =>
    have hphase : w.phase ≠ .up := by rw [hloading]; simp
    unfold loadFile
    split
    · exact exclusive_crashed _
    · obtain ⟨hnone, hstill⟩ := exclusive_take (hw.closed hphase) (still_of_closed hledger hphase)
      exact exclusive_of_still hnone hstill
  | opened _ hloading _ =>
    have hphase : w.phase ≠ .up := by rw [hloading]; simp
    exact exclusive_of_still (hw.closed hphase) (still_of_closed hledger hphase)

theorem orderly {Good : JobRunner → Move → Prop} (h : Reaches (step digest cfg) Good initial w) :
    Ledger w ∧ Exclusive digest w := by
  have hinitial : Ledger initial ∧ Exclusive digest initial :=
    ⟨ledger_initial, exclusive_of_still rfl fun hj => by cases hj⟩
  refine h.invariant (I := fun v => Ledger v ∧ Exclusive digest v) hinitial ?_
  intro v v' m hv _ hstep
  exact ⟨ledger_step hv.1 hstep, exclusive_step hv.1 hv.2 hstep⟩

end JobRunner

end ADT.Runner
