import ADT.Runner.Exclusive

/-!
# Runner.Idempotency — one job and one turn for each idempotency key

The file of an accepted job stays, also over restarts, and with it the digest of its key and the fingerprint of its
request; its turn is called on the way from its admission, which no restart takes up again.
-/

namespace ADT.Runner

open Guarded

/-- The task has not come to its turn yet. -/
def Task.early : Task → Bool
  | .admitting | .preparing | .validating | .savingRunning => true
  | _ => false

namespace Job

variable {bounded : Bool} {now : Instant} {j : Job} {m : JobMove} {o : Outcome}

/-- A turn is called by a task that comes to it, of a job that is on file. -/
structure Called (j : Job) (o : Outcome) : Prop where
  early : o.job.task.early = true → j.task.early = true
  first : o.runs = true → j.task = .savingRunning ∧ o.job.task.early = false ∧ o.stored.isSome = true

theorem called_of_idle (hruns : o.runs = false) (hearly : o.job.task.early = true → j.task.early = true) : Called j o :=
  ⟨hearly, fun h => absurd (hruns.symm.trans h) (by simp)⟩

theorem called_of_effect (hsane : j.Sane) (h : Effect bounded now j m o) : Called j o := by
  cases h with
  | @write ok w rest hwrites =>
    cases ha : w.awaits with
    | admission =>
      have htask := (hsane.awaiting hwrites (by rw [ha]; rfl)).1
      rw [ha] at htask
      have hearly : j.task.early = true := by rw [admitting_of_awaits htask]; rfl
      cases hlanded : (ok && !j.broken && w.record.fits) <;> exact called_of_idle rfl fun _ => hearly
    | running =>
      have htask := (hsane.awaiting hwrites (by rw [ha]; rfl)).1
      rw [ha] at htask
      have htask := saving_of_awaits htask
      have hearly : j.task.early = true := by rw [htask]; rfl
      cases hlanded : (ok && !j.broken && w.record.fits) with
      | false => exact called_of_idle rfl fun _ => hearly
      | true =>
        refine ⟨fun _ => hearly, fun hruns => ⟨htask, ?_, rfl⟩⟩
        simp only [wake, afterRunning, Bool.not_true, Bool.false_eq_true, if_false]
        split_ifs <;> rfl
    | started => exact called_of_idle rfl fun h => h
    | terminal =>
      simp only [wake, afterTerminal]
      split <;> exact called_of_idle rfl fun h => by cases h
    | cancel => exact called_of_idle rfl fun h => by rwa [wake, (settled_fields _).2.1] at h
    | reconcile => exact called_of_idle rfl fun h => by rwa [wake, (settled_fields _).2.1] at h
  | prepareReady htask _ => exact called_of_idle rfl fun _ => by rw [htask]; rfl
  | valid htask _ => exact called_of_idle rfl fun _ => by rw [htask]; rfl
  | started _ => exact called_of_idle rfl fun h => h
  | late _ _ => exact called_of_idle rfl fun h => h
  | cancelAgain _ _ => exact called_of_idle rfl fun h => h
  | cancelled _ _ _ => exact called_of_idle rfl fun h => h
  | _ => exact called_of_idle rfl fun h => by cases h

theorem left_of_effect (hsane : j.Sane) (hentering : j.Entering) (h : Effect bounded now j m o)
    (htask : j.task = .admitting) : o.job.task = .admitting ∨ (o.job.kept = true → o.stored.isSome = true) := by
  have hidle : j.turn = .idle := hsane.idle_of (by rw [htask]; rfl)
  cases h with
  | @write ok w rest hwrites =>
    obtain ⟨w', hhead, hadmission⟩ := hentering htask
    rw [hwrites, List.head?_cons] at hhead
    cases hhead
    right
    cases hlanded : (ok && !j.broken && w.record.fits) with
    | true => exact fun _ => rfl
    | false => exact fun hkept => by simp [hadmission, wake] at hkept
  | started hturn | late hturn | returned hturn | rejectedStarted hturn | rejected hturn =>
    exact absurd (hidle.symm.trans hturn) (by simp)
  | cancelAgain _ _ => exact .inl htask
  | cancelled _ _ _ => exact .inl htask
  | quiesced hclean _ => rcases hclean with h | h <;> exact absurd (htask.symm.trans h) (by simp)
  -- these moves are made by a task that is admitted
  | prepareCancelled h | prepareReady h | prepareFailed h | invalid h | validCancelled h | valid h | proceedFailed h
  | proceedForced h | proceedCancelled h | concluded h | timedOut h | interrupted h | forced h | stuck h | unobserved h
  | observedCancelled h | observed h =>
    exact absurd (htask.symm.trans h) (by simp)

end Job

namespace JobRunner

variable {digest : String → Digest} {cfg : Config} {now : Instant} {w w' : JobRunner} {m : Move}

variable (digest) in
/-- The record is of a job for this request. -/
def Answers (input : StartInput) (r : JobRecord) : Prop :=
  r.idempotencyDigest = digest input.idempotencyKey ∧ r.fingerprint = fingerprint digest input

variable {input : StartInput} {id : JobId} {job : Job}

theorem Answers.of_identity {r r' : JobRecord} (h : Answers digest input r)
    (hidentity : r'.identity = r.identity) : Answers digest input r' :=
  ⟨(digest_of_identity hidentity).trans h.1, (fingerprint_of_identity hidentity).trans h.2⟩

variable (digest) in
structure Accounts (w : JobRunner) : Prop where
  present : ∀ {id j}, w.jobs id = some j → j.kept = true → j.task ≠ .admitting → (w.disk id).isSome = true
  started : ∀ {input id}, (input, id) ∈ w.starts →
    input.wellFormed = true ∧ ∃ r, w.disk id = some r ∧ Answers digest input r
  once : w.calls.Nodup
  called : ∀ {id}, id ∈ w.calls → (w.disk id).isSome = true ∧ ∀ {j}, w.jobs id = some j → j.task.early = false

/-- The files are as they were, or are records of the same jobs. -/
structure Continues (w w' : JobRunner) : Prop where
  file : ∀ {id r}, w.disk id = some r → ∃ r', w'.disk id = some r' ∧ r'.identity = r.identity

theorem Continues.isSome (h : Continues w w') (hfile : (w.disk id).isSome = true) : (w'.disk id).isSome = true := by
  obtain ⟨r, hr⟩ := Option.isSome_iff_exists.mp hfile
  obtain ⟨r', hr', -⟩ := h.file hr
  rw [hr']
  rfl

theorem Continues.answers (h : Continues w w')
    (hstarted : ∃ r, w.disk id = some r ∧ Answers digest input r) : ∃ r, w'.disk id = some r ∧ Answers digest input r := by
  obtain ⟨r, hr, hanswers⟩ := hstarted
  obtain ⟨r', hr', hidentity⟩ := h.file hr
  exact ⟨r', hr', hanswers.of_identity hidentity⟩

theorem continues_of_disk (h : w'.disk = w.disk) : Continues w w' := ⟨fun hr => ⟨_, by rw [h]; exact hr, rfl⟩⟩

theorem continues_crashed (hledger : Ledger w) (landed : JobId → Bool) : Continues w (w.crashed landed) := by
  refine ⟨fun {id r} hr => ?_⟩
  simp only [crashed]
  split
  · next r' hr' =>
    obtain ⟨j, hj, hlanding⟩ := Option.bind_eq_some_iff.mp hr'
    obtain ⟨-, -, write, rest, hwrites, rfl⟩ := Job.landing_some hlanding
    have hidentity := (hledger.filed hj).kin write (by rw [hwrites]; exact List.mem_cons_self)
    split_ifs
    · exact ⟨write.record, rfl, hidentity.trans ((hledger.filed hj).file r hr).symm⟩
    · exact ⟨r, hr, rfl⟩
  · exact ⟨r, hr, rfl⟩

theorem continues_apply {o : Outcome} (hfile : ∀ r, w.disk id = some r →
    r.identity = job.record.identity) (hfile' : ∀ r, o.stored.or (w.disk id) = some r → r.identity = job.record.identity) :
    Continues w (w.apply id job o) := by
  refine ⟨fun {id' r} hr => ?_⟩
  by_cases heq : id' = id
  · subst heq
    rw [apply_disk_self]
    cases hstored : o.stored with
    | none => exact ⟨r, hr, rfl⟩
    | some r' =>
      refine ⟨r', rfl, (hfile' r' ?_).trans (hfile r hr).symm⟩
      rw [hstored]
      rfl
  · rw [apply_disk_ne heq]
    exact ⟨r, hr, rfl⟩

theorem record_some {r : JobRecord} (h : w.record id = some r) :
    ∃ j, w.jobs id = some j ∧ j.kept = true ∧ j.record = r := by
  obtain ⟨j, hj, rfl⟩ := Option.map_eq_some_iff.mp h
  obtain ⟨hj, hkept⟩ := Option.filter_eq_some_iff.mp hj
  exact ⟨j, hj, hkept, rfl⟩

theorem accounts_of_continues (hw : Accounts digest w) (hfiles : Continues w w')
    (hlists : w'.starts = w.starts ∧ w'.calls = w.calls)
    (hpresent : ∀ {id j}, w'.jobs id = some j → j.kept = true → j.task ≠ .admitting → (w'.disk id).isSome = true)
    (hearly : ∀ {id j}, id ∈ w.calls → w'.jobs id = some j → j.task.early = false) : Accounts digest w' where
  present := hpresent
  started h := by
    rw [hlists.1] at h
    exact ⟨(hw.started h).1, hfiles.answers (hw.started h).2⟩
  once := by rw [hlists.2]; exact hw.once
  called h := by
    rw [hlists.2] at h
    exact ⟨hfiles.isSome (hw.called h).1, hearly h⟩

theorem accounts_replay {old : JobId} (hledger : Ledger w) (hexclusive : Exclusive digest w)
    (hw : Accounts digest w) (halone : w.exclusive = none) (hform : input.wellFormed = true)
    (hfound : w.byDigest (digest input.idempotencyKey) = some old)
    (hsame : ∃ r, w.record old = some r ∧ r.fingerprint = fingerprint digest input) :
    Accounts digest { w with starts := w.starts ++ [(input, old)] } := by
  refine ⟨hw.present, fun {input' id} h => ?_, hw.once, hw.called⟩
  rcases List.mem_append.mp h with h | h
  · exact hw.started h
  · cases List.mem_singleton.mp h
    obtain ⟨r, hr, hfingerprint⟩ := hsame
    obtain ⟨j, hj, hkept, rfl⟩ := record_some hr
    have htask : j.task ≠ .admitting := by
      intro htask
      obtain ⟨input'', hstart⟩ := hexclusive.admitting hj htask
      rw [halone] at hstart
      cases hstart
    obtain ⟨file, hfile⟩ := Option.isSome_iff_exists.mp (hw.present hj hkept htask)
    have hidentity := (hledger.filed hj).file file hfile
    obtain ⟨j', hj', -, hdigest⟩ := hledger.known hfound
    rw [hj] at hj'
    cases hj'
    have hanswers : Answers digest input j.record := ⟨hdigest, hfingerprint⟩
    exact ⟨hform, file, hfile, hanswers.of_identity hidentity⟩

theorem accounts_enter {key : EnvironmentKey} (hledger : Ledger w)
    (hw : Accounts digest w) (hnew : id ∉ w.used) : Accounts digest (w.enter digest now input key id) := by
  refine accounts_of_continues hw (continues_of_disk rfl) ⟨rfl, rfl⟩ (fun hj hkept htask => ?_) fun {id' j} hcalled hj => ?_
  · rcases update_jobs hj with ⟨-, rfl⟩ | ⟨-, hj⟩
    · exact absurd rfl htask
    · exact hw.present hj hkept htask
  · rcases update_jobs hj with ⟨rfl, -⟩ | ⟨-, hj⟩
    · obtain ⟨r, hr⟩ := Option.isSome_iff_exists.mp (hw.called hcalled).1
      exact absurd (hledger.stored hr).1 hnew
    · exact (hw.called hcalled).2 hj

theorem started_of_succeeded {operation : Option Operation} {id' : JobId}
    (h : (input, id') ∈ succeeded operation id) : operation = some (.start input id) ∧ id' = id := by
  unfold succeeded at h
  split at h
  · split_ifs at h with heq
    · cases List.mem_singleton.mp h
      exact ⟨by rw [heq], rfl⟩
    · cases h
  · cases h

/-- The move of a job. -/
theorem accounts_apply {move : JobMove} {o : Outcome} (hledger : Ledger w)
    (hexclusive : Exclusive digest w) (hw : Accounts digest w) (hjob : w.jobs id = some job)
    (heffect : Job.Effect cfg.boundedExecutionPlane now job move o) : Accounts digest (w.apply id job o) := by
  have hfiled := hledger.filed hjob
  have hnext := filed_of_effect hfiled heffect
  have hidentity := (Job.kept_of_effect heffect).identity
  have hcalled := Job.called_of_effect hfiled.sane heffect
  have hfiles : Continues w (w.apply id job o) :=
    continues_apply hfiled.file fun r hr => (hnext.file r hr).trans hidentity
  have hpresent : o.job.kept = true → o.job.task ≠ .admitting → ((w.apply id job o).disk id).isSome = true := by
    intro hkept htask
    rw [apply_disk_self, Option.isSome_or, Bool.or_eq_true]
    by_cases hbefore : job.task = .admitting
    · exact .inl ((Job.left_of_effect hfiled.sane hfiled.entering heffect hbefore).resolve_left htask hkept)
    · exact .inr (hw.present hjob (Job.held_of_effect hfiled.sane heffect hkept) hbefore)
  have hjobs : ∀ {id' j}, (w.apply id job o).jobs id' = some j → id' ∈ w.calls → j.task.early = false := by
    intro id' j hj hcall
    rcases update_jobs hj with ⟨rfl, rfl⟩ | ⟨-, hj⟩
    · by_contra hearly
      have := hcalled.early (by simpa using hearly)
      exact absurd ((hw.called hcall).2 hjob) (by rw [this]; simp)
    · exact (hw.called hcall).2 hj
  refine ⟨fun {id' j} hj hkept htask => ?_, fun {input id'} h => ?_, ?_, fun {id'} hcall => ?_⟩
  · rcases update_jobs hj with ⟨rfl, rfl⟩ | ⟨-, hj⟩
    · exact hpresent hkept htask
    · exact hfiles.isSome (hw.present hj hkept htask)
  · have hbefore : (input, id') ∈ w.starts ∨ o.stored.isSome = true ∧ (input, id') ∈ succeeded w.exclusive id := by
      simp only [apply] at h
      split_ifs at h with hended
      · exact (List.mem_append.mp h).imp (fun h => h) fun h => ⟨(Bool.and_eq_true_iff.mp hended).2, h⟩
      · exact .inl h
    rcases hbefore with h | ⟨hstored, h⟩
    · exact ⟨(hw.started h).1, hfiles.answers (hw.started h).2⟩
    · obtain ⟨hstart, rfl⟩ := started_of_succeeded h
      obtain ⟨hform, j, hj, hdigest, hfingerprint⟩ := hexclusive.asked hstart
      rw [hjob] at hj
      cases hj
      obtain ⟨r, hr⟩ := Option.isSome_iff_exists.mp hstored
      have hfile : (w.apply id' job o).disk id' = some r := by rw [apply_disk_self, hr]; rfl
      have hanswers : Answers digest input job.record := ⟨hdigest, hfingerprint⟩
      refine ⟨hform, r, hfile, hanswers.of_identity (Eq.trans ?_ hidentity)⟩
      exact hnext.file r (by rw [hr]; rfl)
  · simp only [apply]
    split_ifs with hruns
    · -- the task was on its way to the turn, so that it was not called before
      obtain ⟨hsaving, -, -⟩ := hcalled.first hruns
      refine List.nodup_append.mpr ⟨hw.once, List.nodup_singleton id, ?_⟩
      rintro a ha b hb rfl
      cases List.mem_singleton.mp hb
      have hearly := (hw.called ha).2 hjob
      rw [hsaving] at hearly
      cases hearly
    · exact hw.once
  · have hbefore : id' ∈ w.calls ∨ id' = id ∧ o.runs = true := by
      simp only [apply] at hcall
      split_ifs at hcall with hruns
      · exact (List.mem_append.mp hcall).imp (fun h => h) fun h => ⟨List.mem_singleton.mp h, hruns⟩
      · exact .inl hcall
    rcases hbefore with hcall | ⟨rfl, hruns⟩
    · exact ⟨hfiles.isSome (hw.called hcall).1, fun hj => hjobs hj hcall⟩
    · obtain ⟨-, hlate, hstored⟩ := hcalled.first hruns
      refine ⟨?_, fun hj => ?_⟩
      · rw [apply_disk_self, Option.isSome_or, hstored]
        rfl
      · rcases update_jobs hj with ⟨-, rfl⟩ | ⟨hne, -⟩
        · exact hlate
        · exact absurd rfl hne

theorem accounts_reconcile {reason : JobFailureReason} (hw : Accounts digest w) (hjob : w.jobs id = some job) :
    Accounts digest { w.apply id job (job.reconcile now reason) with exclusive := some .reconcileActive } := by
  refine accounts_of_continues hw (continues_of_disk rfl) ⟨rfl, rfl⟩ (fun hj hkept htask => ?_) fun {id' j} hcalled hj => ?_
  · rcases update_jobs hj with ⟨rfl, rfl⟩ | ⟨-, hj⟩
    · exact hw.present hjob hkept htask
    · exact hw.present hj hkept htask
  · rcases update_jobs hj with ⟨rfl, rfl⟩ | ⟨-, hj⟩
    · have hearly := (hw.called hcalled).2 hjob
      exact hearly
    · exact (hw.called hcalled).2 hj

theorem accounts_crashed (hledger : Ledger w) (hw : Accounts digest w) (landed : JobId → Bool) :
    Accounts digest (w.crashed landed) :=
  accounts_of_continues hw (continues_crashed hledger landed) ⟨rfl, rfl⟩ (fun hj => by cases hj) fun _ hj => by cases hj

theorem accounts_take {file : JobRecord} {ok : Bool} (hledger : Ledger w) (hw : Accounts digest w)
    (hfile : w.disk id = some file) : Accounts digest (w.take cfg now id file ok) := by
  have hinsert : ∀ {r : JobRecord} {task : Task} {v : JobRunner}, task = .done ∨ task = .resuming → Continues w v →
      v.starts = w.starts ∧ v.calls = w.calls → v.jobs = Function.update w.jobs id (some (.loaded r task)) →
      Accounts digest v := by
    intro r task v htask hfiles hlists hjobs
    refine accounts_of_continues hw hfiles hlists (fun hj hkept hopen => ?_) fun hcalled hj => ?_
    · rw [hjobs] at hj
      rcases update_jobs hj with ⟨rfl, -⟩ | ⟨-, hj⟩
      · exact hfiles.isSome (by rw [hfile]; rfl)
      · exact hfiles.isSome (hw.present hj hkept hopen)
    · rw [hjobs] at hj
      rcases update_jobs hj with ⟨-, rfl⟩ | ⟨-, hj⟩
      · rcases htask with rfl | rfl <;> rfl
      · exact (hw.called hcalled).2 hj
  unfold take
  split_ifs
  · exact accounts_crashed hledger hw _
  · exact hinsert (.inl rfl) (continues_of_disk rfl) ⟨rfl, rfl⟩ rfl
  · exact accounts_crashed hledger hw _
  · exact hinsert (.inr rfl) (continues_of_disk rfl) ⟨rfl, rfl⟩ rfl
  · refine hinsert (.inl rfl) ⟨fun {id' r} hr => ?_⟩ ⟨rfl, rfl⟩ rfl
    by_cases heq : id' = id
    · subst heq
      rw [hfile] at hr
      cases hr
      exact ⟨restarted now file, Function.update_self .., rfl⟩
    · exact ⟨r, (Function.update_of_ne heq _ _).trans hr, rfl⟩
  · exact accounts_crashed hledger hw _

theorem accounts_step (hledger : Ledger w) (hexclusive : Exclusive digest w) (hw : Accounts digest w)
    (h : w.step digest cfg m = some w') : Accounts digest w' := by
  cases change_of_step h with
  | refused => exact hw
  | replayed _ _ halone hadmits =>
    obtain ⟨hfound, hsame⟩ := admits_replay hadmits
    exact accounts_replay hledger hexclusive hw halone (admits_wellFormed hadmits) hfound hsame
  | entered _ _ _ _ hnew => exact accounts_enter hledger hw hnew
  | moved _ _ hjob heffect => exact accounts_apply hledger hexclusive hw hjob heffect
  | reconciled _ _ _ _ hjob => exact accounts_reconcile hw hjob
  | reported => exact ⟨hw.present, hw.started, hw.once, hw.called⟩
  | crashed => exact accounts_crashed hledger hw _
  | booted => exact ⟨hw.present, hw.started, hw.once, hw.called⟩
  | loaded _ _ _ hfile =>
    unfold loadFile
    rw [hledger.read hfile]
    split
    · exact accounts_crashed hledger hw _
    · next value hvalue =>
      split_ifs at hvalue
      cases hvalue
      exact accounts_take hledger hw hfile
  | opened => exact ⟨hw.present, hw.started, hw.once, hw.called⟩

theorem accounts_of_reaches {Good : JobRunner → Move → Prop} (h : Reaches (step digest cfg) Good initial w) :
    Accounts digest w := by
  have hinitial : Accounts digest initial :=
    ⟨(fun hj => nomatch hj), (fun h => nomatch h), List.nodup_nil, fun h => nomatch h⟩
  refine h.invariant_of_reached hinitial fun hreach hv _ hstep => ?_
  exact accounts_step (orderly hreach).1 (orderly hreach).2 hv hstep

/-! ### What a fingerprint tells apart -/

/-- The text that the fingerprint of a request is taken of. -/
def fingerprintText (input : StartInput) : String := (Json.obj input.fingerprintFields).stringify

theorem distinct_orNull (value : Option String) : (orNull value).distinct = true := by
  cases value with
  | none => rfl
  | some s => rfl

theorem orNull_injective : Function.Injective orNull := by
  intro a b h
  cases a with
  | none =>
    cases b with
    | none => rfl
    | some t => cases h
  | some s =>
    cases b with
    | none => cases h
    | some t =>
      cases h
      rfl

theorem fingerprintFields_eq (input : StartInput) (hform : input.wellFormed = true) :
    input.fingerprintFields =
      [("environmentKey", .str input.environmentKey), ("prompt", .str input.prompt), ("model", orNull input.model),
        ("reasoningEffort", orNull input.reasoningEffort)] ++
      (input.managedTaskId.elim [] fun taskId => [("managedTaskId", .str taskId),
      ("sourceBranch", orNull input.sourceBranch)]) ++
      [("conversationRef", orNull input.conversationRef)] := by
  cases htask : input.managedTaskId with
  | none => simp [StartInput.fingerprintFields, htask]
  | some taskId =>
    have hne : taskId ≠ "" := by
      rintro rfl
      simp [StartInput.wellFormed, htask, isTaskId] at hform
    have hkept : (some taskId).filter (fun id => decide (id ≠ "")) = some taskId :=
      Option.filter_eq_some_iff.mpr ⟨rfl, decide_eq_true hne⟩
    rw [StartInput.fingerprintFields, htask, hkept]
    rfl

theorem distinct_fingerprint (input : StartInput) (hform : input.wellFormed = true) :
    (Json.obj input.fingerprintFields).distinct = true := by
  rw [fingerprintFields_eq input hform]
  cases input.managedTaskId with
  | none => simp [Json.distinct, Json.distinctFields, distinct_orNull]
  | some taskId => simp [Json.distinct, Json.distinctFields, distinct_orNull]

theorem branch_none (hform : input.wellFormed = true) (htask : input.managedTaskId = none) :
    input.sourceBranch = none := by
  cases hbranch : input.sourceBranch with
  | none => rfl
  | some branch => simp [StartInput.wellFormed, htask, hbranch] at hform

theorem eq_of_fingerprintText {input' : StartInput} (hform : input.wellFormed = true)
    (hform' : input'.wellFormed = true) (hkey : input.idempotencyKey = input'.idempotencyKey)
    (h : fingerprintText input = fingerprintText input') : input = input' := by
  have hparse := congrArg Json.parse h
  rw [fingerprintText, fingerprintText, Json.parse_stringify _ (distinct_fingerprint input hform),
    Json.parse_stringify _ (distinct_fingerprint input' hform'), Option.some.injEq, Json.obj.injEq,
    fingerprintFields_eq input hform, fingerprintFields_eq input' hform'] at hparse
  obtain ⟨key, environmentKey, prompt, model, effort, task, branch, ref⟩ := input
  obtain ⟨key', environmentKey', prompt', model', effort', task', branch', ref'⟩ := input'
  have hnone := branch_none hform
  have hnone' := branch_none hform'
  cases task with
  | none =>
    cases task' with
    | none =>
      simp only [Option.elim, List.append_nil, List.cons_append, List.nil_append, List.cons.injEq, Prod.mk.injEq,
        true_and, and_true, Json.str.injEq] at hparse
      obtain ⟨rfl, rfl, hmodel, heffort, href⟩ := hparse
      simp only [forall_const] at hkey hnone hnone'
      rw [hkey, hnone, hnone', orNull_injective hmodel, orNull_injective heffort, orNull_injective href]
    | some taskId' => simp at hparse
  | some taskId =>
    cases task' with
    | none => simp at hparse
    | some taskId' =>
      simp only [Option.elim, List.cons_append, List.nil_append, List.cons.injEq, Prod.mk.injEq, true_and, and_true,
        Json.str.injEq] at hparse
      obtain ⟨rfl, rfl, hmodel, heffort, rfl, hbranch, href⟩ := hparse
      simp only at hkey
      rw [hkey, orNull_injective hmodel, orNull_injective heffort, orNull_injective hbranch, orNull_injective href]

/-! ### One job for each key -/

variable (digest) in
/-- The calls of `runWorkflowTurn` for the jobs of a key. -/
def callsFor (w : JobRunner) (key : String) : List JobId :=
  w.calls.filter fun id => (w.disk id).any fun r => r.idempotencyDigest = digest key

/-- What `start` answers to a request that is not the accepted one of its key. -/
def rejection (w : JobRunner) (input : StartInput) : String :=
  if !w.storageHealthy then "workflow_storage_unavailable"
  else if !input.wellFormed then "invalid_request"
  else "idempotency_conflict"

variable (digest cfg) in
/-- The calls of `start` with one key lead to one job and to one turn at most, and another request with the key is
rejected; the digest tells the texts of the two requests apart. -/
structure Idempotent (w : JobRunner) : Prop where
  same : ∀ {input input' id id'}, (input, id) ∈ w.starts → (input', id') ∈ w.starts →
    input.idempotencyKey = input'.idempotencyKey → id = id'
  once : ∀ key, (w.callsFor digest key).length ≤ 1
  onFile : ∀ {id}, id ∈ w.calls → (w.disk id).isSome = true
  conflict : ∀ {first id input}, w.phase = .up → (first, id) ∈ w.starts →
    input.idempotencyKey = first.idempotencyKey → input ≠ first →
    Set.InjOn digest {fingerprintText first, fingerprintText input} → ∀ environment admissionAllowed,
      w.admits digest cfg input environment admissionAllowed = .error (w.rejection input) ∧
      ∀ now new, w.exclusive = none → w.step digest cfg ⟨now, .start input environment admissionAllowed new⟩ = some w

theorem Accounts.one_turn (hledger : Ledger w) (hw : Accounts digest w) (key : String) :
    (w.callsFor digest key).length ≤ 1 := by
  have hnodup : (w.callsFor digest key).Nodup := hw.once.filter _
  have hdigest : ∀ {id}, id ∈ w.callsFor digest key → ∃ r, w.disk id = some r ∧ r.idempotencyDigest = digest key := by
    intro id hid
    have hfile := (List.mem_filter.mp hid).2
    simpa only [Option.any_eq_true, decide_eq_true_eq] using hfile
  match hcalls : w.callsFor digest key with
  | [] => exact Nat.zero_le 1
  | [_] => exact le_rfl
  | a :: b :: rest =>
    rw [hcalls] at hnodup hdigest
    obtain ⟨r, hr, hkey⟩ := hdigest List.mem_cons_self
    obtain ⟨r', hr', hkey'⟩ := hdigest (List.mem_cons_of_mem _ List.mem_cons_self)
    have hab : a = b := hledger.unique hr hr' (hkey.trans hkey'.symm)
    subst hab
    simp at hnodup

theorem Accounts.rejected (hledger : Ledger w) (hw : Accounts digest w) (hup : w.phase = .up) {first : StartInput}
    (hfirst : (first, id) ∈ w.starts) (hkey : input.idempotencyKey = first.idempotencyKey) (hother : input ≠ first)
    (hdigest : Set.InjOn digest {fingerprintText first, fingerprintText input}) (environment : Option Environment)
    (admissionAllowed : Bool) : w.admits digest cfg input environment admissionAllowed = .error (w.rejection input) := by
  obtain ⟨hform, r, hr, hanswers⟩ := hw.started hfirst
  obtain ⟨j, hj, hkept⟩ := hledger.mapped hup hr
  have hidentity := (hledger.filed hj).file r hr
  have hfound : w.byDigest (digest input.idempotencyKey) = some id := by
    rw [hkey, ← hanswers.1, digest_of_identity hidentity]
    exact hledger.indexed hj hkept
  have hrecord : w.record id = some j.record := by simp [record, hj, hkept]
  unfold admits rejection
  by_cases hhealthy : w.storageHealthy = true
  · by_cases hinput : input.wellFormed = true
    · have hdiffers : j.record.fingerprint ≠ fingerprint digest input := by
        rw [← fingerprint_of_identity hidentity, hanswers.2]
        intro hsame
        have htext := hdigest (Set.mem_insert _ _) (Set.mem_insert_of_mem _ rfl) hsame
        exact hother (eq_of_fingerprintText hinput hform hkey htext.symm)
      simp [hhealthy, hinput, hfound, hrecord, hdiffers]
    · simp [hhealthy, hinput]
  · simp [hhealthy]

/-- Whatever the calls, the crashes and the restarts, a key leads to one job. -/
theorem idempotent {Good : JobRunner → Move → Prop} (h : Reaches (step digest cfg) Good initial w) :
    Idempotent digest cfg w := by
  obtain ⟨hledger, -⟩ := orderly h
  have hw := accounts_of_reaches h
  refine ⟨fun hstart hstart' hkey => ?_, hw.one_turn hledger, fun hid => (hw.called hid).1,
    fun {_ _ input} hup hfirst hkey hother hdigest environment admissionAllowed => ?_⟩
  · obtain ⟨-, r, hr, hanswers⟩ := hw.started hstart
    obtain ⟨-, r', hr', hanswers'⟩ := hw.started hstart'
    exact hledger.unique hr hr' (by rw [hanswers.1, hanswers'.1, hkey])
  · have hrejected : w.admits digest cfg input environment admissionAllowed = .error (w.rejection input) :=
      hw.rejected hledger hup hfirst hkey hother hdigest environment admissionAllowed
    refine ⟨hrejected, fun now new halone => ?_⟩
    simp [step, hup, halone, hrejected]

/-- The process that reads the file of the job answers a second call with its key. -/
def Sample.replays (v : JobRunner) : Bool :=
  decide (v.phase = .loading ∧ v.jobs Sample.jobA = none) && (v.disk Sample.jobA).any fun r =>
    r.fits && r.sound && (run (step Sample.digest Sample.integrated) (fun _ _ => true)
      (v.take Sample.integrated .newYear Sample.jobA r true)
      (Sample.moves [.loaded, .start (Sample.input "first") (some Sample.environment) true Sample.jobB])).any fun w =>
        decide (w.starts = List.replicate 2 (Sample.input "first", Sample.jobA) ∧ w.calls = [Sample.jobA])

/-- The process before it ends in the turn of the job. -/
theorem idempotent_replaying :
    ∃ w : JobRunner, w.starts = [(Sample.input "first", Sample.jobA), (Sample.input "first", Sample.jobA)] ∧
      w.calls = [Sample.jobA] ∧ Idempotent Sample.digest Sample.integrated w := by
  obtain ⟨v, hreach, hreplays⟩ : ∃ v, Reaches (step Sample.digest Sample.integrated) _ initial v ∧
      Sample.replays v = true :=
    reaches_of_any (fun _ _ => true) (Sample.moves (Sample.opening ++ Sample.starting "first" Sample.jobA ++
      Sample.turning Sample.jobA ++ [.crash fun _ => true, .boot])) _ (by decide +kernel)
  simp only [Sample.replays, Bool.and_eq_true, decide_eq_true_eq, Option.any_eq_true] at hreplays
  obtain ⟨⟨hphase, hnew⟩, r, hr, ⟨hfits, hsound⟩, w, hrun, hstarts, hcalls⟩ := hreplays
  have hload : step Sample.digest Sample.integrated v ⟨.newYear, .loadFile Sample.jobA true⟩ =
      some (v.take Sample.integrated .newYear Sample.jobA r true) := by
    simp [step, hphase, hnew, hr, loadFile, (orderly hreach).1.read hr, hfits, hsound]
  exact ⟨w, hstarts, hcalls, idempotent ((hreach.tail rfl hload).trans (.of_run hrun))⟩

/-- Another request under the key of the first. -/
def Sample.other : StartInput := { Sample.input "first" with prompt := "other" }

/-- A digest that tells the first request from the other. -/
def Sample.telling (s : String) : Digest :=
  if s = "first" ∨ s = fingerprintText Sample.other then Sample.digestA else Sample.digestB

/-- After a failed write the other request is not told of its conflict. -/
theorem conflict_untold : ¬∀ (w : JobRunner) first id input environment admissionAllowed,
      Reaches (step Sample.telling Sample.integrated) (fun _ _ => True) initial w → w.phase = .up →
      (first, id) ∈ w.starts → input.idempotencyKey = first.idempotencyKey → input ≠ first →
      Set.InjOn Sample.telling {fingerprintText first, fingerprintText input} →
      w.admits Sample.telling Sample.integrated input environment admissionAllowed = .error "idempotency_conflict" := by
  intro hall
  obtain ⟨w, hreach, hstate⟩ : ∃ w, Reaches (step Sample.telling Sample.integrated) _ initial w ∧
      decide (w.phase = .up ∧ (Sample.input "first", Sample.jobA) ∈ w.starts ∧ w.storageHealthy = false) = true :=
    reaches_of_any (fun _ _ => true)
      (Sample.moves (Sample.opening ++ Sample.starting "first" Sample.jobA ++
        [.job Sample.jobA .cancel, .job Sample.jobA (.write false)])) _ (by decide +kernel)
  obtain ⟨hup, hstart, hunhealthy⟩ := of_decide_eq_true hstate
  have hdigest : Set.InjOn Sample.telling {fingerprintText (Sample.input "first"), fingerprintText Sample.other} := by
    refine Set.injOn_pair.mpr fun h => absurd h ?_
    decide +kernel
  have hconflict := hall w (Sample.input "first") Sample.jobA Sample.other none true (hreach.mono fun _ _ _ => trivial) hup
    hstart rfl (by decide) hdigest
  simp [admits, hunhealthy] at hconflict

end JobRunner

end ADT.Runner
