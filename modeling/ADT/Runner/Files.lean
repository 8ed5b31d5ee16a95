import ADT.Runner.Restart

/-!
# Runner.Files — every file can be read again

In a run without a misstated record `parsePersisted` takes every file, and a restart trusts all of them.
-/

namespace ADT.Runner

open Guarded

namespace JobRunner

variable {digest : String → Digest} {cfg : Config} {now : Instant} {w w' : JobRunner} {m : Move}

/-- A move that leads to a file that cannot be read: of a job that misstates its record, or past the last revision. -/
def misstates (w : JobRunner) (m : Move) : Bool :=
  match m.act with
  | .job id move => (w.jobs id).any fun j => j.misstates move || decide (maxSafeInteger ≤ j.record.revision)
  | .reconcileActive _ =>
    w.activeJob.any fun id => (w.jobs id).any fun j => decide (maxSafeInteger ≤ j.record.revision)
  | .loadFile id _ => (w.disk id).any fun r => decide (maxSafeInteger ≤ r.revision)
  | _ => false

structure Restartable (w : JobRunner) : Prop where
  reloadable : ∀ {id j}, w.jobs id = some j → j.Reloadable id ∧ j.InOrder (w.disk id) ∧ j.Closing
  readable : ∀ {id r}, w.disk id = some r → r.fits = true ∧ r.sound = true
  errors : ∀ {id j}, w.jobs id = some j → j.persistenceError = true → w.storageHealthy = false
  left : ∀ {id j}, w.jobs id = some j → j.Leaving → j.Active (w.disk id) → w.storageHealthy = false ∨ j.reconciles ≠ 0
  held : ∀ {id j}, w.jobs id = some j → j.Active (w.disk id) →
    w.activeJob = some id ∨ w.storageHealthy = false ∨ j.reconciles ≠ 0
  alone : ∀ {id id' j j'}, w.jobs id = some j → w.jobs id' = some j' → j.Active (w.disk id) → j'.Active (w.disk id') →
    id = id'
  single : w.phase ≠ .up → ∀ {id id' r r'}, w.disk id = some r → w.disk id' = some r' → r.state.terminal = false →
    r'.state.terminal = false → id = id'
  resumed : w.phase ≠ .up → w.storageHealthy = true ∧ ∀ {id}, w.activeJob = some id →
    (w.jobs id).isSome = true ∧ ∃ r, w.disk id = some r ∧ r.state.terminal = false

theorem restartable_of_none (hjobs : ∀ id, w.jobs id = none) (hactive : w.activeJob = none)
    (hhealthy : w.storageHealthy = true)
    (hreadable : ∀ {id r}, w.disk id = some r → r.fits = true ∧ r.sound = true)
    (hsingle : ∀ {id id' r r'}, w.disk id = some r → w.disk id' = some r' → r.state.terminal = false →
      r'.state.terminal = false → id = id') : Restartable w where
  reloadable hj := absurd ((hjobs _).symm.trans hj) (by simp)
  readable := hreadable
  errors hj := absurd ((hjobs _).symm.trans hj) (by simp)
  left hj := absurd ((hjobs _).symm.trans hj) (by simp)
  held hj := absurd ((hjobs _).symm.trans hj) (by simp)
  alone hj := absurd ((hjobs _).symm.trans hj) (by simp)
  single _ := hsingle
  resumed _ := ⟨hhealthy, fun h => absurd (hactive.symm.trans h) (by simp)⟩

variable {id : JobId} {r : JobRecord} {disk : Option JobRecord} {task : Task}

theorem Restartable.orderly (hw : Restartable w) (hledger : Ledger w) (haccounts : Accounts digest w) {j : Job}
    (hj : w.jobs id = some j) : j.Orderly (w.disk id) id := by
  obtain ⟨hreloadable, hinOrder, hclosing⟩ := hw.reloadable hj
  refine ⟨hledger.filed hj, hreloadable, hinOrder, hclosing, fun hkept hb => ?_⟩
  by_cases htask : j.task = .admitting
  · obtain ⟨write, hhead, -⟩ := (hledger.filed hj).entering htask
    cases hwrites : j.writes with
    | nil =>
      rw [hwrites] at hhead
      cases hhead
    | cons write' rest => simp [Job.chain, hb, hwrites]
  · obtain ⟨r, hr⟩ := Option.isSome_iff_exists.mp (haccounts.present hj hkept htask)
    simp [Job.chain, hr]

theorem active_of_file {j : Job} (hj : w.jobs id = some j) (hopen : r.state.terminal = false)
    (hfile : w.disk id = some r ∨ ∃ j, w.jobs id = some j ∧ j.landing = some r) : j.Active (w.disk id) := by
  refine ⟨r.state, ?_, hopen⟩
  rcases hfile with hr | ⟨j', hj', hlanding⟩
  · simp [Job.chain, hr]
  · rw [hj] at hj'
    cases hj'
    obtain ⟨hb, -, write, rest, hwrites, rfl⟩ := Job.landing_some hlanding
    simp [Job.chain, hb, hwrites]

theorem restartable_crashed (hledger : Ledger w) (hw : Restartable w) (landed : JobId → Bool) :
    Restartable (w.crashed landed) := by
  refine restartable_of_none (fun _ => rfl) rfl rfl (fun hr => ?_) fun hr hr' hopen hopen' => ?_
  · rcases crashed_file hr with hr | ⟨j, hj, hlanding⟩
    · exact hw.readable hr
    · obtain ⟨hb, hfits, write, rest, hwrites, rfl⟩ := Job.landing_some hlanding
      rcases (hw.reloadable hj).1.written with hbroken | ⟨hreadable, -⟩
      · exact absurd (hbroken.symm.trans hb) (by simp)
      · exact ⟨hfits, (hreadable write (by rw [hwrites]; exact List.mem_cons_self)).sound⟩
  · by_cases hup : w.phase = .up
    · obtain ⟨j, hj, -⟩ := hledger.holder hup (crashed_file hr)
      obtain ⟨j', hj', -⟩ := hledger.holder hup (crashed_file hr')
      exact hw.alone hj hj' (active_of_file hj hopen (crashed_file hr)) (active_of_file hj' hopen' (crashed_file hr'))
    · have hfile : ∀ {id r}, (w.crashed landed).disk id = some r → w.disk id = some r := by
        intro id r hr
        rcases crashed_file hr with hr | ⟨j, hj, hlanding⟩
        · exact hr
        · rw [hledger.landing_none hup hj] at hlanding
          cases hlanding
      exact hw.single hup (hfile hr) (hfile hr') hopen hopen'

/-- So does every move of a job while the Runner is up. -/
theorem restartable_apply {job : Job} {move : JobMove} {o : Outcome} (hw : Restartable w)
    (hup : w.phase = .up) (hjob : w.jobs id = some job) (hj : job.Orderly (w.disk id) id)
    (heffect : Job.Effect cfg.boundedExecutionPlane now job move o) (hstates : job.misstates move = false)
    (hrevision : job.record.revision < maxSafeInteger) : Restartable (w.apply id job o) := by
  have hactive : ∀ {id' j}, (w.apply id job o).jobs id' = some j → j.Active ((w.apply id job o).disk id') →
      ∃ j', w.jobs id' = some j' ∧ j'.Active (w.disk id') := by
    intro id' j hj' hactive
    rcases update_jobs hj' with ⟨rfl, rfl⟩ | ⟨hne, hj'⟩
    · rw [apply_disk_self] at hactive
      exact ⟨job, hjob, hj.active_of heffect hstates hactive⟩
    · rw [apply_disk_ne hne] at hactive
      exact ⟨j, hj', hactive⟩
  have hunhealthy : w.storageHealthy = false ∨ o.damages = true → (w.apply id job o).storageHealthy = false := by
    rintro (h | h) <;> simp [apply, h]
  refine ⟨fun {id' j} hj' => ?_, fun {id' r} hr => ?_, fun {id' j} hj' herror => ?_, fun {id' j} hj' hleaving hact => ?_,
    fun {id' j} hj' hact => ?_, fun hj₁ hj₂ hact hact' => ?_, fun h => absurd hup h, fun h => absurd hup h⟩
  · rcases update_jobs hj' with ⟨rfl, rfl⟩ | ⟨hne, hj'⟩
    · rw [apply_disk_self]
      exact ⟨Job.reloadable_of_effect hj.reloadable hj.filed.sane heffect hstates hrevision,
        Job.inOrder_of_effect hj.inOrder hj.reloadable heffect hstates, Job.closing_of_effect hj.closing heffect⟩
    · rw [apply_disk_ne hne]
      exact hw.reloadable hj'
  · by_cases heq : id' = id
    · subst heq
      rw [apply_disk_self] at hr
      rcases Option.or_eq_some_iff.mp hr with hstored | ⟨-, hr⟩
      · obtain ⟨hb, hfits, write, rest, hwrites, rfl⟩ := Job.stored_of_effect heffect hstored
        rcases hj.reloadable.written with hbroken | ⟨hreadable, -⟩
        · exact absurd (hbroken.symm.trans hb) (by simp)
        · exact ⟨hfits, (hreadable write (by rw [hwrites]; exact List.mem_cons_self)).sound⟩
      · exact hw.readable hr
    · rw [apply_disk_ne heq] at hr
      exact hw.readable hr
  · rcases update_jobs hj' with ⟨rfl, rfl⟩ | ⟨-, hj'⟩
    · rcases Job.error_of_effect heffect herror with herror | hdamages
      · exact hunhealthy (.inl (hw.errors hjob herror))
      · exact hunhealthy (.inr hdamages)
    · exact hunhealthy (.inl (hw.errors hj' herror))
  · rcases update_jobs hj' with ⟨rfl, rfl⟩ | ⟨hne, hj'⟩
    · rw [apply_disk_self] at hact
      rcases hj.left_of (hw.left hjob) (hw.errors hjob) heffect hstates hleaving hact with hu | hdamages | hreconciles
      · exact .inl (hunhealthy (.inl hu))
      · exact .inl (hunhealthy (.inr hdamages))
      · exact .inr hreconciles
    · rw [apply_disk_ne hne] at hact
      exact (hw.left hj' hleaving hact).imp (fun h => hunhealthy (.inl h)) fun h => h
  · rcases update_jobs hj' with ⟨rfl, rfl⟩ | ⟨hne, hj'⟩
    · rw [apply_disk_self] at hact
      rcases hj.held_of (hw.held hjob) (hw.left hjob) (hw.errors hjob) heffect hstates hact with
        ⟨hholds, hno⟩ | hu | hdamages | hreconciles
      · left
        simp [apply, hno, hholds]
      · exact .inr (.inl (hunhealthy (.inl hu)))
      · exact .inr (.inl (hunhealthy (.inr hdamages)))
      · exact .inr (.inr hreconciles)
    · rw [apply_disk_ne hne] at hact
      rcases hw.held hj' hact with hholds | hu | hreconciles
      · left
        have hother : ¬w.activeJob = some id := fun h => hne (Option.some.inj (hholds.symm.trans h))
        exact (if_neg fun h => hother h.1).trans hholds
      · exact .inr (.inl (hunhealthy (.inl hu)))
      · exact .inr (.inr hreconciles)
  · obtain ⟨j₁, hbefore, hwas⟩ := hactive hj₁ hact
    obtain ⟨j₂, hbefore', hwas'⟩ := hactive hj₂ hact'
    exact hw.alone hbefore hbefore' hwas hwas'

theorem orderly_reconcile {job : Job} (hj : job.Orderly disk id)
    (reason : JobFailureReason) : (job.reconcile now reason).job.InOrder disk ∧ (job.reconcile now reason).job.Closing ∧
      ((job.reconcile now reason).job.Active disk ↔ job.Active disk) := by
  have hinOrder : Job.InOrder disk { job.fail reason with
      forcedTerminal := true, terminalPending := true,
      record := { (job.fail reason).record with outputText := none } } := hj.inOrder.change rfl rfl fun _ _ => rfl
  have hclosing : Job.Closing { job.fail reason with
      forcedTerminal := true, terminalPending := true,
      record := { (job.fail reason).record with outputText := none } } := hj.closing.change (fun _ h => h) fun _ => rfl
  refine ⟨hinOrder.persist .reconcile, hclosing.persist .reconcile fun _ => rfl, ?_⟩
  exact (Job.active_persist_terminal .reconcile rfl).trans (Job.active_congr rfl rfl)

/-- So does the reconciliation of the active job. -/
theorem restartable_reconcile {id : JobId} {job : Job} {reason : JobFailureReason} (hw : Restartable w)
    (hup : w.phase = .up) (hjob : w.jobs id = some job) (hj : job.Orderly (w.disk id) id)
    (hrevision : job.record.revision < maxSafeInteger) :
    Restartable { w.apply id job (job.reconcile now reason) with exclusive := some .reconcileActive } := by
  obtain ⟨hinOrder, hclosing, hactive⟩ := orderly_reconcile hj reason
  have hactiveJob : (w.apply id job (job.reconcile now reason)).activeJob = w.activeJob :=
    if_neg (by rintro ⟨-, h | ⟨h, -⟩⟩ <;> cases h)
  have hhealthy : (w.apply id job (job.reconcile now reason)).storageHealthy = w.storageHealthy := Bool.and_true _
  have hreconciles : (job.reconcile now reason).job.reconciles ≠ 0 := by
    rw [Job.reconciles_reconcile]
    exact Nat.succ_ne_zero _
  have hbefore : ∀ {id' j}, (w.apply id job (job.reconcile now reason)).jobs id' = some j → j.Active (w.disk id') →
      ∃ j', w.jobs id' = some j' ∧ j'.Active (w.disk id') := by
    intro id' j hj' hact
    rcases update_jobs hj' with ⟨rfl, rfl⟩ | ⟨-, hj'⟩
    · exact ⟨job, hjob, hactive.mp hact⟩
    · exact ⟨j, hj', hact⟩
  refine ⟨fun {id' j} hj' => ?_, hw.readable, fun {id' j} hj' herror => ?_, fun {id' j} hj' hleaving hact => ?_,
    fun {id' j} hj' hact => ?_, fun hj₁ hj₂ hact hact' => ?_, fun h => absurd hup h, fun h => absurd hup h⟩
  · rcases update_jobs hj' with ⟨rfl, rfl⟩ | ⟨-, hj'⟩
    · exact ⟨Job.reloadable_reconcile hj.reloadable reason hrevision, hinOrder, hclosing⟩
    · exact hw.reloadable hj'
  · show (w.apply id job (job.reconcile now reason)).storageHealthy = false
    rw [hhealthy]
    rcases update_jobs hj' with ⟨rfl, rfl⟩ | ⟨-, hj'⟩
    · exact hw.errors hjob herror
    · exact hw.errors hj' herror
  · show (w.apply id job (job.reconcile now reason)).storageHealthy = false ∨ _
    rw [hhealthy]
    rcases update_jobs hj' with ⟨rfl, rfl⟩ | ⟨-, hj'⟩
    · exact .inr hreconciles
    · exact hw.left hj' hleaving hact
  · show (w.apply id job (job.reconcile now reason)).activeJob = some id' ∨
      (w.apply id job (job.reconcile now reason)).storageHealthy = false ∨ _
    rw [hactiveJob, hhealthy]
    rcases update_jobs hj' with ⟨rfl, rfl⟩ | ⟨-, hj'⟩
    · exact .inr (.inr hreconciles)
    · exact hw.held hj' hact
  · obtain ⟨j₁, hwas, hact₁⟩ := hbefore hj₁ hact
    obtain ⟨j₂, hwas', hact₂⟩ := hbefore hj₂ hact'
    exact hw.alone hwas hwas' hact₁ hact₂

theorem terminal_of_concluded {s : RecordState} (h : s.concluded = true) : s.terminal = true := by
  cases s with
  | completed => rfl
  | cancelled => rfl
  | _ => cases h

theorem reloadable_loaded (hsound : r.sound = true)
    (htask : task = .done ∨ task = .resuming ∧ r.state.terminal = false) (disk : Option JobRecord)
    (hfile : disk = some r) : (Job.loaded r task).Reloadable r.jobId ∧ (Job.loaded r task).InOrder disk ∧
      (Job.loaded r task).Closing := by
  obtain ⟨-, hidentified, hconsistent⟩ := JobRecord.sound_iff.mp hsound
  refine ⟨⟨rfl, hidentified, fun output threadId h => ?_, fun hconcluded => ?_, .inr ⟨fun _ h => (by cases h), hconsistent,
    fun _ hexposed => ?_⟩⟩, fun _ => ?_, ⟨fun _ h => (by cases h), fun h => ?_⟩⟩
  · rcases htask with rfl | ⟨rfl, -⟩ <;> cases h
  · rcases htask with rfl | ⟨rfl, hopen⟩
    · rfl
    · exact absurd (hopen.symm.trans (terminal_of_concluded hconcluded)) (by simp)
  · rcases htask with rfl | ⟨rfl, -⟩ <;> cases hexposed
  · subst hfile
    simp [Job.chain, Job.loaded, Job.Ordered]
  · rcases htask with rfl | ⟨rfl, -⟩ <;> cases h

theorem active_loaded (hfile : disk = some r) : (Job.loaded r task).Active disk ↔ r.state.terminal = false := by
  subst hfile
  simp [Job.Active, Job.chain, Job.loaded]

/-- A record that a restart reads keeps what the next restart needs. -/
theorem restartable_extend (hw : Restartable w) (hphase : w.phase ≠ .up)
    (hnew : w.jobs id = none) (hnamed : r.jobId = id) (hfits : r.fits = true) (hsound : r.sound = true)
    (htask : task = .done ∧ r.state.terminal = true ∧ w'.activeJob = w.activeJob ∨
      task = .resuming ∧ r.state.terminal = false ∧ w.activeJob = none ∧ w'.activeJob = some id)
    (hfile : w'.disk id = some r) (hbefore : r.state.terminal = false → w.disk id = some r)
    (hothers : ∀ {id'}, id' ≠ id → w'.disk id' = w.disk id')
    (hjobs : w'.jobs = Function.update w.jobs id (some (.loaded r task))) (hhealthy : w'.storageHealthy = w.storageHealthy)
    (hstill : ∀ {id j}, w.jobs id = some j → j.reconciles = 0) : Restartable w' := by
  have hold : ∀ {id' j}, w'.jobs id' = some j → id' = id ∧ j = .loaded r task ∨ id' ≠ id ∧ w.jobs id' = some j := by
    intro id' j hj
    rw [hjobs] at hj
    exact update_jobs hj
  obtain ⟨hwas, hresumed⟩ := hw.resumed hphase
  -- the jobs that are active are those with the slot
  have hheld : ∀ {id' j}, w'.jobs id' = some j → j.Active (w'.disk id') → w'.activeJob = some id' := by
    intro id' j hj hact
    rcases hold hj with ⟨rfl, rfl⟩ | ⟨hne, hj⟩
    · have hopen := (active_loaded hfile).mp hact
      rcases htask with ⟨-, hterminal, -⟩ | ⟨-, -, -, hactive⟩
      · exact absurd (hterminal.symm.trans hopen) (by simp)
      · exact hactive
    · rw [hothers hne] at hact
      have hactive : w.activeJob = some id' := by
        rcases hw.held hj hact with h | h | h
        · exact h
        · exact absurd (h.symm.trans hwas) (by simp)
        · exact absurd (hstill hj) h
      rcases htask with ⟨-, -, hkeeps⟩ | ⟨-, -, hnone, -⟩
      · exact hkeeps.trans hactive
      · exact absurd (hnone.symm.trans hactive) (by simp)
  have hfiles : ∀ {id' r'}, w'.disk id' = some r' → r'.state.terminal = false → w.disk id' = some r' := by
    intro id' r' hr' hopen
    by_cases heq : id' = id
    · subst heq
      rw [hfile] at hr'
      cases hr'
      exact hbefore hopen
    · rw [hothers heq] at hr'
      exact hr'
  refine ⟨fun {id' j} hj => ?_, fun {id' r'} hr' => ?_, fun {id' j} hj herror => ?_, fun {id' j} hj hleaving hact => ?_,
    fun hj hact => .inl (hheld hj hact), fun hj hj' hact hact' => ?_, fun _ _ _ _ _ hr hr' hopen hopen' => ?_, fun _ => ?_⟩
  · rcases hold hj with ⟨rfl, rfl⟩ | ⟨hne, hj⟩
    · subst hnamed
      exact reloadable_loaded hsound (htask.imp (fun h => h.1) fun h => ⟨h.1, h.2.1⟩) _ hfile
    · rw [hothers hne]
      exact hw.reloadable hj
  · by_cases heq : id' = id
    · subst heq
      rw [hfile] at hr'
      cases hr'
      exact ⟨hfits, hsound⟩
    · rw [hothers heq] at hr'
      exact hw.readable hr'
  · rcases hold hj with ⟨-, rfl⟩ | ⟨-, hj⟩
    · cases herror
    · rw [hhealthy]
      exact hw.errors hj herror
  · rcases hold hj with ⟨rfl, rfl⟩ | ⟨hne, hj⟩
    · have hopen := (active_loaded hfile).mp hact
      rcases htask with ⟨-, hterminal, -⟩ | ⟨rfl, -⟩
      · exact absurd (hterminal.symm.trans hopen) (by simp)
      · rcases hleaving with h | h <;> cases h
    · rw [hothers hne] at hact
      rw [hhealthy]
      exact hw.left hj hleaving hact
  · exact Option.some.inj ((hheld hj hact).symm.trans (hheld hj' hact'))
  · exact hw.single hphase (hfiles hr hopen) (hfiles hr' hopen') hopen hopen'
  · refine ⟨hhealthy.trans hwas, fun {a} hactive => ?_⟩
    rcases htask with ⟨-, -, hkeeps⟩ | ⟨-, hopen, -, hslot⟩
    · obtain ⟨hjob, r', hr', hopen'⟩ := hresumed (hkeeps ▸ hactive)
      have hne : a ≠ id := by
        rintro rfl
        rw [hnew] at hjob
        cases hjob
      exact ⟨by rw [hjobs, Function.update_of_ne hne]; exact hjob, r', (hothers hne).trans hr', hopen'⟩
    · cases hslot.symm.trans hactive
      exact ⟨by rw [hjobs, Function.update_self]; rfl, r, hfile, hopen⟩

theorem sound_restarted {file : JobRecord} (hsound : file.sound = true) (hopen : file.state.terminal = false)
    (hrevision : file.revision < maxSafeInteger) : (restarted now file).sound = true := by
  obtain ⟨-, hidentified, hconsistent⟩ := JobRecord.sound_iff.mp hsound
  have hnone : file.outputText = none := by
    obtain ⟨hc, -⟩ | ⟨-, hnone, -⟩ | ⟨-, -, hnone, -⟩ := coherent_iff.mp hconsistent
    · rw [hc] at hopen
      cases hopen
    · exact hnone
    · exact hnone
  refine JobRecord.sound_iff.mpr ⟨hrevision, ?_, coherent_iff.mpr (.inr (.inl ⟨rfl, hnone, by simp [restarted]⟩))⟩
  simp only [JobRecord.identified, Bool.and_eq_true] at hidentified ⊢
  exact ⟨⟨hidentified.1.1, rfl⟩, rfl⟩

theorem restartable_take {file : JobRecord} {ok : Bool} (hledger : Ledger w) (hw : Restartable w)
    (hphase : w.phase ≠ .up) (hnew : w.jobs id = none) (hfile : w.disk id = some file)
    (hrevision : file.revision < maxSafeInteger) : Restartable (w.take cfg now id file ok) := by
  have hnamed := (hledger.stored hfile).2
  obtain ⟨hfits, hsound⟩ := hw.readable hfile
  have hstill : ∀ {id j}, w.jobs id = some j → j.reconciles = 0 := fun hj => (still_of_closed hledger hphase hj).2
  unfold take
  split_ifs with hknown hterminal hresumable hactive hok
  · exact restartable_crashed hledger hw _
  · exact restartable_extend hw hphase hnew hnamed hfits hsound (.inl ⟨rfl, hterminal, rfl⟩) hfile (fun _ => hfile)
      (fun _ => rfl) rfl rfl hstill
  · exact restartable_crashed hledger hw _
  · exact restartable_extend hw hphase hnew hnamed hfits hsound
      (.inr ⟨rfl, by simpa using hterminal, by simpa using hactive, rfl⟩) hfile (fun _ => hfile) (fun _ => rfl) rfl rfl
      hstill
  · have hrestarted : (restarted now file).sound = true := sound_restarted hsound (by simpa using hterminal) hrevision
    have hwritten : Function.update w.disk id (some (restarted now file)) id = some (restarted now file) :=
      Function.update_self ..
    have hterminal : (restarted now file).state.terminal = true := rfl
    refine restartable_extend (r := restarted now file) hw hphase hnew hnamed (Bool.and_eq_true_iff.mp hok).2
      hrestarted (.inl ⟨rfl, hterminal, rfl⟩) hwritten (fun h => ?_) (fun hne => ?_) rfl rfl hstill
    · exact absurd (hterminal.symm.trans h) (by simp)
    · exact Function.update_of_ne hne _ _
  · exact restartable_crashed hledger hw _

theorem restartable_enter {input : StartInput} {key : EnvironmentKey} (hledger : Ledger w)
    (hexclusive : Exclusive digest w) (hw : Restartable w) (hup : w.phase = .up) (halone : w.exclusive = none)
    (hhealthy : w.storageHealthy = true) (hfree : w.activeJob = none) (hnew : id ∉ w.used) :
    Restartable (w.enter digest now input key id) := by
  have hdisk : w.disk id = none := by
    cases h : w.disk id with
    | none => rfl
    | some r => exact absurd (hledger.stored h).1 hnew
  have hcalm : ∀ {id j}, w.jobs id = some j → ¬j.Active (w.disk id) := by
    intro id j hj hact
    rcases hw.held hj hact with h | h | h
    · exact absurd (hfree.symm.trans h) (by simp)
    · exact absurd (hhealthy.symm.trans h) (by simp)
    · exact h (hexclusive.quiet (by rw [halone]; simp) hj)
  refine ⟨fun {id' j} hj => ?_, hw.readable, fun {id' j} hj herror => ?_, fun {id' j} hj hleaving hact => ?_,
    fun {id' j} hj hact => ?_, fun hj hj' hact hact' => ?_, fun h => absurd hup h, fun h => absurd hup h⟩
  · rcases update_jobs hj with ⟨rfl, rfl⟩ | ⟨-, hj⟩
    · refine ⟨⟨rfl, rfl, fun _ _ h => (by cases h), fun h => (by cases h), .inr ⟨fun write hwrite => ?_, rfl, fun h => ?_⟩⟩,
        fun _ => ?_, ⟨fun write hwrite ha => ?_, fun h => (by cases h)⟩⟩
      · cases List.mem_singleton.mp hwrite
        exact ⟨rfl, JobRecord.sound_iff.mpr ⟨(by decide : 1 ≤ maxSafeInteger), rfl, rfl⟩⟩
      · cases h
      · show Job.Ordered (Job.chain (w.disk id') _ ++ _)
        rw [hdisk]
        simp [Job.chain, Job.persist, Job.admitted, newRecord, Job.Ordered]
      · cases List.mem_singleton.mp hwrite
        rcases ha with ha | ha <;> cases ha
    · exact hw.reloadable hj
  · rcases update_jobs hj with ⟨-, rfl⟩ | ⟨-, hj⟩
    · cases herror
    · exact hw.errors hj herror
  · rcases update_jobs hj with ⟨-, rfl⟩ | ⟨-, hj⟩
    · rcases hleaving with h | h <;> cases h
    · exact absurd hact (hcalm hj)
  · rcases update_jobs hj with ⟨rfl, -⟩ | ⟨-, hj⟩
    · exact .inl rfl
    · exact absurd hact (hcalm hj)
  · rcases update_jobs hj with ⟨rfl, -⟩ | ⟨-, hbefore⟩
    · rcases update_jobs hj' with ⟨rfl, -⟩ | ⟨-, hbefore'⟩
      · rfl
      · exact absurd hact' (hcalm hbefore')
    · exact absurd hact (hcalm hbefore)

/-- **One move.** -/
theorem restartable_step (hledger : Ledger w) (hexclusive : Exclusive digest w) (haccounts : Accounts digest w)
    (hw : Restartable w) (hstates : w.misstates m = false) (h : w.step digest cfg m = some w') : Restartable w' := by
  cases change_of_step h with
  | refused => exact hw
  | replayed => exact ⟨hw.reloadable, hw.readable, hw.errors, hw.left, hw.held, hw.alone, hw.single, hw.resumed⟩
  | entered _ hup halone hadmits hnew =>
    obtain ⟨hhealthy, -, hfree, -⟩ := admits_fresh hadmits
    exact restartable_enter hledger hexclusive hw hup halone hhealthy hfree hnew
  | @moved id move job o hact hup hjob heffect =>
    obtain ⟨hmove, hrevision⟩ : job.misstates move = false ∧ job.record.revision < maxSafeInteger := by
      simpa [misstates, hact, hjob] using hstates
    exact restartable_apply hw hup hjob (hw.orderly hledger haccounts hjob) heffect hmove hrevision
  | @reconciled reason id job hact hup _ hactive hjob =>
    have hrevision : job.record.revision < maxSafeInteger := by
      simpa [misstates, hact, hactive, hjob] using hstates
    exact restartable_reconcile hw hup hjob (hw.orderly hledger haccounts hjob) hrevision
  | reported => exact ⟨hw.reloadable, hw.readable, hw.errors, hw.left, hw.held, hw.alone, hw.single, hw.resumed⟩
  | crashed => exact restartable_crashed hledger hw _
  | booted _ hdown =>
    have hphase : w.phase ≠ .up := by rw [hdown]; simp
    exact ⟨hw.reloadable, hw.readable, hw.errors, hw.left, hw.held, hw.alone, fun _ => hw.single hphase,
      fun _ => hw.resumed hphase⟩
  | @loaded id ok file hact hloading hnew hfile =>
    have hrevision : file.revision < maxSafeInteger := by
      simpa [misstates, hact, hfile] using hstates
    obtain ⟨hfits, hsound⟩ := hw.readable hfile
    rw [loadFile, hledger.read hfile, hfits, hsound]
    exact restartable_take hledger hw (by rw [hloading]; simp) hnew hfile hrevision
  | opened =>
    exact ⟨hw.reloadable, hw.readable, hw.errors, hw.left, hw.held, hw.alone, fun h => absurd rfl h, fun h => absurd rfl h⟩

theorem restartable_of_reaches (h : Reaches (step digest cfg) (fun v m => v.misstates m = false) initial w) :
    Restartable w := by
  have hinitial : Restartable initial :=
    restartable_of_none (fun _ => rfl) rfl rfl (fun h => nomatch h) fun h => nomatch h
  refine h.invariant_of_reached hinitial fun hreach hv hstates hstep => ?_
  exact restartable_step (JobRunner.orderly hreach).1 (JobRunner.orderly hreach).2 (accounts_of_reaches hreach) hv hstates
    hstep

/-! ### What a restart trusts -/

/-- `load` throws `job_state_untrusted` at a file. -/
def distrusts (cfg : Config) (w : JobRunner) (id : JobId) (file : JobRecord) : Bool :=
  match parsePersisted file.snapshot (fileName id) with
  | none => true
  | some value =>
    (w.byDigest value.idempotencyDigest).isSome ||
      !value.state.terminal && resumable cfg value && w.activeJob.isSome

variable (cfg) in
/-- Every file can be read again, and none is distrusted by a restart. -/
structure Reloads (w : JobRunner) : Prop where
  accepted : ∀ {id r}, w.disk id = some r → parsePersisted r.snapshot (fileName id) = some r
  trusted : ∀ {id r}, w.phase = .loading → w.jobs id = none → w.disk id = some r → distrusts cfg w id r = false

theorem Restartable.readsBack (hw : Restartable w) (hledger : Ledger w) (haccounts : Accounts digest w) : Reloads cfg w := by
  have haccepted : ∀ {id r}, w.disk id = some r → parsePersisted r.snapshot (fileName id) = some r := by
    intro id r hr
    obtain ⟨hfits, hsound⟩ := hw.readable hr
    rw [hledger.read hr, hfits, hsound]
    rfl
  refine ⟨haccepted, fun {id r} hloading hnew hr => ?_⟩
  have hphase : w.phase ≠ .up := by rw [hloading]; simp
  have hdigest : w.byDigest r.idempotencyDigest = none := by
    by_contra hknown
    obtain ⟨id', hid'⟩ := Option.ne_none_iff_exists'.mp hknown
    obtain ⟨j, hj, hkept, hsame⟩ := hledger.known hid'
    obtain ⟨r', hr'⟩ := Option.isSome_iff_exists.mp (haccounts.present hj hkept (still_of_closed hledger hphase hj).1)
    have hdigest := digest_of_identity ((hledger.filed hj).file r' hr')
    obtain rfl := hledger.unique hr' hr (hdigest.trans hsame)
    rw [hnew] at hj
    cases hj
  simp only [distrusts, haccepted hr, hdigest, Option.isSome_none, Bool.false_or]
  by_contra hopen
  simp only [Bool.and_eq_false_iff, Bool.not_eq_false', not_or, Bool.not_eq_true, Bool.not_eq_false] at hopen
  obtain ⟨⟨hopen, -⟩, hactive⟩ := hopen
  obtain ⟨a, ha⟩ := Option.isSome_iff_exists.mp hactive
  obtain ⟨hjob, r', hr', hopen'⟩ := (hw.resumed hphase).2 ha
  obtain rfl := hw.single hphase hr' hr hopen' hopen
  rw [hnew] at hjob
  cases hjob

/-- **What is on file is what was reported**, in every state of a run that misstates no record. -/
theorem reloads (h : Reaches (step digest cfg) (fun v m => v.misstates m = false) initial w) : Reloads cfg w :=
  (restartable_of_reaches h).readsBack (JobRunner.orderly h).1 (accounts_of_reaches h)

/-- A job that is on file, in a run without a misstated record. -/
theorem reloads_admitted : ∃ w : JobRunner, (w.disk Sample.jobA).isSome = true ∧ Reloads Sample.integrated w := by
  obtain ⟨w, hreach, hfile⟩ : ∃ w, Reaches (step Sample.digest Sample.integrated) _ initial w ∧
      (w.disk Sample.jobA).isSome = true :=
    reaches_of_any (fun (v : JobRunner) m => !v.misstates m)
      (Sample.moves (Sample.opening ++ Sample.starting "first" Sample.jobA)) _ (by decide +kernel)
  exact ⟨w, hfile, reloads (hreach.mono fun _ _ hgood => by simpa using hgood)⟩

/-- A job that `reconcileActive` fails during its preparation runs on with its reason. -/
theorem misstated_running :
    ¬∀ (w : JobRunner) id r, Reaches (step Sample.digest Sample.integrated) (fun _ _ => True) initial w →
      w.disk id = some r → parsePersisted r.snapshot (fileName id) = some r := by
  intro hall
  obtain ⟨w, hreach, hfile⟩ : ∃ w, Reaches (step Sample.digest Sample.integrated) _ initial w ∧
      (w.disk Sample.jobA).any (fun r => !r.sound) = true :=
    reaches_of_any (fun _ _ => true)
      (Sample.moves (Sample.opening ++ Sample.starting "first" Sample.jobA ++ [.job Sample.jobA (.prepared true),
        .reconcileActive .runnerRestarted, .job Sample.jobA (.write true), .job Sample.jobA (.validated none),
        .job Sample.jobA (.write true)])) _ (by decide +kernel)
  cases hr : w.disk Sample.jobA with
  | none =>
    rw [hr] at hfile
    cases hfile
  | some r =>
    have hread := hall w Sample.jobA r (hreach.mono fun _ _ _ => trivial) hr
    have hsound : r.sound = false := by simpa [hr] using hfile
    rw [(JobRunner.orderly hreach).1.read hr, hsound, Bool.and_false] at hread
    cases hread

end JobRunner

end ADT.Runner
