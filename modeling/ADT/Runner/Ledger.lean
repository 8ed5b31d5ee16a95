import ADT.Runner.Slot

/-!
# Runner.Ledger — the maps of the Runner and its files

A record keeps its job, its digest and its fingerprint through every move.  The map of digests finds every job that the
Runner holds, a process that is open holds a job for every file, and no two files have one digest.
-/

namespace ADT.Runner

open Guarded

def JobRecord.identity (r : JobRecord) : JobId × Digest × Digest := (r.jobId, r.idempotencyDigest, r.fingerprint)

namespace Job

variable {bounded : Bool} {now : Instant} {j : Job} {m : JobMove} {o : Outcome}

theorem identity_conclude (result : TurnResult) : (j.conclude result).record.identity = j.record.identity := by
  cases result with
  | ok output threadId => rfl
  | failed reason => rfl

theorem identity_settled (landed : Bool) : (j.settled landed).record.identity = j.record.identity := by
  cases landed with
  | true => rfl
  | false => rfl

/-- The writes of a job are records of it. -/
def Kin (j : Job) : Prop := ∀ w ∈ j.writes, w.record.identity = j.record.identity

/-- A change of the record, with or without a write of it. -/
structure Kept (j job : Job) : Prop where
  identity : job.record.identity = j.record.identity
  writes : ∀ w ∈ job.writes, w ∈ j.writes ∨ w.record.identity = j.record.identity

theorem Kept.kin (h : Kept j o.job) (hj : j.Kin) : o.job.Kin := by
  intro w hw
  rw [h.identity]
  exact (h.writes w hw).elim (hj w) fun h => h

theorem kept_of_writes {job : Job} (hidentity : job.record.identity = j.record.identity) (hwrites : job.writes = j.writes) :
    Kept j job :=
  ⟨hidentity, fun _ hw => .inl (hwrites ▸ hw)⟩

theorem kept_persist {job : Job} {a : Awaits} (hidentity : job.record.identity = j.record.identity)
    (hwrites : job.writes = j.writes) : Kept j (persist now job a) where
  identity := hidentity
  writes w hw := by
    rcases List.mem_append.mp hw with hw | hw
    · exact .inl (hwrites ▸ hw)
    · cases List.mem_singleton.mp hw
      exact .inr hidentity

variable {w : Write}

theorem kept_wake {rest : List Write} {broken landed : Bool} (h : j.writes = w :: rest) :
    Kept j (wake now { j with writes := rest, broken := broken } w.awaits landed).job := by
  have hpop : ∀ w' ∈ rest, w' ∈ j.writes := by
    intro w' hw'
    rw [h]
    exact List.mem_cons_of_mem _ hw'
  have hsettled : Kept j (settled { j with writes := rest, broken := broken } landed) := by
    refine ⟨identity_settled (j := { j with writes := rest, broken := broken }) landed, fun w' hw' => .inl (hpop w' ?_)⟩
    rwa [(settled_fields landed).1] at hw'
  cases w.awaits with
  | admission => cases landed <;> exact ⟨rfl, fun w' hw' => .inl (hpop w' hw')⟩
  | started => exact ⟨rfl, fun w' hw' => .inl (hpop w' hw')⟩
  | cancel => exact hsettled
  | reconcile => exact hsettled
  | running =>
    simp only [wake, afterRunning]
    split_ifs
    · exact ⟨rfl, fun w' hw' => .inl (hpop w' hw')⟩
    · have hkept : Kept { j with writes := rest, broken := broken }
          (terminate now (Job.setState { j with writes := rest, broken := broken } .cancelled) .closing) :=
        kept_persist rfl rfl
      exact ⟨rfl, fun w' hw' => (hkept.writes w' hw').imp (hpop w') fun h => h⟩
    · exact ⟨rfl, fun w' hw' => .inl (hpop w' hw')⟩
  | terminal =>
    simp only [wake, afterTerminal]
    split <;> exact ⟨hsettled.identity, hsettled.writes⟩

theorem kept_of_effect (h : Effect bounded now j m o) : Kept j o.job := by
  cases h with
  | write hwrites => exact kept_wake hwrites
  | prepareCancelled _ _ => exact kept_persist rfl rfl
  | prepareReady _ _ => exact kept_of_writes rfl rfl
  | prepareFailed _ _ => exact kept_persist rfl rfl
  | invalid _ => exact kept_persist rfl rfl
  | validCancelled _ _ => exact kept_persist rfl rfl
  | valid _ _ => exact kept_persist rfl rfl
  | started _ => exact kept_persist rfl rfl
  | late _ _ => exact kept_of_writes rfl rfl
  | returned _ _ => exact kept_of_writes rfl rfl
  | rejectedStarted _ _ => exact kept_of_writes rfl rfl
  | rejected _ _ => exact kept_persist rfl rfl
  | proceedFailed _ _ _ => exact kept_of_writes rfl rfl
  | proceedForced _ _ _ _ => exact kept_of_writes rfl rfl
  | proceedCancelled _ _ _ _ _ => exact kept_persist rfl rfl
  | concluded _ _ _ _ _ => exact kept_persist (identity_conclude _) (conclude_fields _).1
  | timedOut _ => exact kept_persist rfl rfl
  | interrupted _ => exact kept_persist rfl rfl
  | forced _ _ _ => exact kept_of_writes rfl rfl
  | stuck _ _ _ => exact kept_of_writes rfl rfl
  | quiesced _ _ => exact kept_of_writes rfl rfl
  | unobserved _ => exact kept_persist rfl rfl
  | observedCancelled _ _ => exact kept_persist rfl rfl
  | observed _ _ => exact kept_persist (identity_conclude _) (conclude_fields _).1
  | cancelAgain _ _ => exact kept_of_writes rfl rfl
  | cancelled _ _ _ => exact kept_persist rfl rfl

theorem stored_of_effect (h : Effect bounded now j m o) {r : JobRecord} (hstored : o.stored = some r) :
    j.broken = false ∧ r.fits = true ∧ ∃ w rest, j.writes = w :: rest ∧ r = w.record := by
  cases h with
  | @write ok w rest hwrites =>
    dsimp only at hstored
    split_ifs at hstored with hlanded
    cases hstored
    simp only [Bool.and_eq_true, Bool.not_eq_true'] at hlanded
    exact ⟨hlanded.1.2, hlanded.2, w, rest, hwrites, rfl⟩
  | _ => cases hstored

theorem landing_some {r : JobRecord} (h : j.landing = some r) :
    j.broken = false ∧ r.fits = true ∧ ∃ w rest, j.writes = w :: rest ∧ r = w.record := by
  unfold landing at h
  split at h
  · cases h
  · next w rest hwrites =>
    split_ifs at h with hlanded
    cases h
    simp only [Bool.and_eq_true, Bool.not_eq_true'] at hlanded
    exact ⟨hlanded.1, hlanded.2, w, rest, hwrites, rfl⟩

theorem broken_settled (landed : Bool) (hb : j.broken = true) : (j.settled landed).broken = true := by
  cases landed <;> exact hb

theorem broken_wake (a : Awaits) (landed : Bool) (hb : j.broken = true) : (wake now j a landed).job.broken = true := by
  cases a with
  | admission => simp only [wake]; split <;> exact hb
  | running => simp only [wake, afterRunning]; split_ifs <;> exact hb
  | terminal => simp only [wake, afterTerminal]; split <;> exact broken_settled _ hb
  | started => exact hb
  | cancel => exact broken_settled _ hb
  | reconcile => exact broken_settled _ hb

theorem broken_of_effect (h : Effect bounded now j m o) (hb : j.broken = true) : o.job.broken = true := by
  cases h with
  | write hwrites => exact broken_wake _ _ (by simp [hb])
  | concluded _ _ _ _ _ => cases ‹TurnResult› <;> exact hb
  | observed _ _ => cases ‹TurnResult› <;> exact hb
  | _ => exact hb

theorem head_persist (job : Job) (a : Awaits) (h : job.writes.head? = some w) :
    (persist now job a).writes.head? = some w := by
  cases hwrites : job.writes with
  | nil =>
    rw [hwrites] at h
    cases h
  | cons w' rest =>
    rw [hwrites] at h
    simpa [persist, hwrites] using h

/-- A job that is being admitted waits for its first write. -/
def Entering (j : Job) : Prop := j.task = .admitting → ∃ w, j.writes.head? = some w ∧ w.awaits = .admission

theorem wake_open {landed : Bool} (h : (wake now j w.awaits landed).job.task = .admitting) :
    w.awaits.own = false ∧ j.task = .admitting := by
  cases ha : w.awaits with
  | admission => rw [ha] at h; cases landed <;> cases h
  | running =>
    rw [ha] at h
    simp only [wake, afterRunning] at h
    split_ifs at h <;> cases h
  | terminal =>
    rw [ha] at h
    simp only [wake, afterTerminal] at h
    split at h <;> cases h
  | started => rw [ha] at h; exact ⟨rfl, h⟩
  | cancel => rw [ha, wake, (settled_fields landed).2.1] at h; exact ⟨rfl, h⟩
  | reconcile => rw [ha, wake, (settled_fields landed).2.1] at h; exact ⟨rfl, h⟩

theorem entering_of_effect (hj : j.Entering) (hsane : j.Sane) (h : Effect bounded now j m o)
    (htask : o.job.task = .admitting) :
    j.task = .admitting ∧ o.stored = none ∧ o.job.Entering := by
  cases h with
  | @write ok w rest hwrites =>
    obtain ⟨hown, hbefore⟩ := wake_open htask
    obtain ⟨w', hhead, hadmission⟩ := hj hbefore
    rw [hwrites, List.head?_cons] at hhead
    cases hhead
    rw [hadmission] at hown
    cases hown
  | started hturn =>
    have hturns := hsane.turn (by rw [hturn]; simp)
    rw [show j.task = .admitting from htask] at hturns
    cases hturns
  | late hturn _ =>
    have hturns := hsane.turn (by rw [hturn]; simp)
    rw [show j.task = .admitting from htask] at hturns
    cases hturns
  | cancelAgain _ _ => exact ⟨htask, rfl, hj⟩
  | cancelled _ _ _ =>
    obtain ⟨w, hhead, hadmission⟩ := hj htask
    exact ⟨htask, rfl, fun _ => ⟨w, head_persist _ _ hhead, hadmission⟩⟩
  | interrupted _ => cases htask
  | _ => cases htask

theorem forgotten_of_effect (hsane : j.Sane) (h : Effect bounded now j m o) :
    o.job.kept = j.kept ∨ j.task = .admitting ∧ o.job.kept = false ∧ o.job.broken = true ∧ o.stored = none := by
  cases h with
  | @write ok w rest hwrites =>
    cases ha : w.awaits with
    | admission =>
      have htask := (hsane.awaiting hwrites (by rw [ha]; rfl)).1
      rw [ha] at htask
      cases hlanded : (ok && !j.broken && w.record.fits) with
      | true => exact .inl (by simp [wake])
      | false => exact .inr ⟨admitting_of_awaits htask, by simp [wake]⟩
    | running =>
      left
      simp only [wake, afterRunning]
      split_ifs <;> rfl
    | terminal =>
      left
      simp only [wake, afterTerminal]
      split <;> exact (settled_fields _).2.2.2
    | started => exact .inl (by simp only [wake])
    | cancel => exact .inl (by simp only [wake]; exact (settled_fields _).2.2.2)
    | reconcile => exact .inl (by simp only [wake]; exact (settled_fields _).2.2.2)
  | concluded _ _ _ _ _ => exact .inl (conclude_fields _).2.2
  | observed _ _ => exact .inl (conclude_fields _).2.2
  | _ => exact .inl rfl

theorem held_of_effect (hsane : j.Sane) (h : Effect bounded now j m o) (hkept : o.job.kept = true) : j.kept = true := by
  rcases forgotten_of_effect hsane h with hsame | ⟨-, hforgotten, -⟩
  · rw [← hsame, hkept]
  · exact absurd (hforgotten.symm.trans hkept) (by simp)

end Job

namespace JobRunner

variable {digest : String → Digest} {cfg : Config} {now : Instant} {w w' : JobRunner} {m : Move}

/-- A job of a process, and its file. -/
structure Filed (disk : Option JobRecord) (id : JobId) (j : Job) : Prop where
  sane : j.Sane
  named : j.record.jobId = id
  kin : j.Kin
  file : ∀ r, disk = some r → r.identity = j.record.identity
  entering : j.Entering
  fresh : j.task = .admitting → disk = none
  forgotten : j.kept = false → disk = none ∧ j.broken = true

structure Ledger (w : JobRunner) : Prop where
  filed : ∀ {id j}, w.jobs id = some j → Filed (w.disk id) id j
  drawn : ∀ {id j}, w.jobs id = some j → id ∈ w.used
  stored : ∀ {id r}, w.disk id = some r → id ∈ w.used ∧ r.jobId = id
  unique : ∀ {id id' r r'}, w.disk id = some r → w.disk id' = some r' →
    r.idempotencyDigest = r'.idempotencyDigest → id = id'
  indexed : ∀ {id j}, w.jobs id = some j → j.kept = true → w.byDigest j.record.idempotencyDigest = some id
  known : ∀ {d id}, w.byDigest d = some id →
    ∃ j, w.jobs id = some j ∧ j.kept = true ∧ j.record.idempotencyDigest = d
  mapped : w.phase = .up → ∀ {id r}, w.disk id = some r → ∃ j, w.jobs id = some j ∧ j.kept = true
  still : w.phase ≠ .up → ∀ {id j}, w.jobs id = some j → j.writes = [] ∧ j.kept = true

theorem ledger_of_none (hjobs : ∀ id, w.jobs id = none) (hdigests : ∀ d, w.byDigest d = none) (hphase : w.phase ≠ .up)
    (hstored : ∀ {id r}, w.disk id = some r → id ∈ w.used ∧ r.jobId = id)
    (hunique : ∀ {id id' r r'}, w.disk id = some r → w.disk id' = some r' →
      r.idempotencyDigest = r'.idempotencyDigest → id = id') : Ledger w where
  filed hj := absurd ((hjobs _).symm.trans hj) (by simp)
  drawn hj := absurd ((hjobs _).symm.trans hj) (by simp)
  stored := hstored
  unique := hunique
  indexed hj := absurd ((hjobs _).symm.trans hj) (by simp)
  known hd := absurd ((hdigests _).symm.trans hd) (by simp)
  mapped hup := absurd hup hphase
  still _ _ _ hj := absurd ((hjobs _).symm.trans hj) (by simp)

theorem ledger_initial : Ledger initial :=
  ledger_of_none (fun _ => rfl) (fun _ => rfl) (by simp [initial]) (fun h => by cases h) fun h => by cases h

variable {r : JobRecord} {id : JobId} {o : Outcome} {disk : Option JobRecord}

theorem digest_of_identity {r' : JobRecord} (h : r.identity = r'.identity) :
    r.idempotencyDigest = r'.idempotencyDigest :=
  congrArg (·.2.1) h

theorem jobId_of_identity {r' : JobRecord} (h : r.identity = r'.identity) : r.jobId = r'.jobId := congrArg (·.1) h

theorem fingerprint_of_identity {r' : JobRecord} (h : r.identity = r'.identity) : r.fingerprint = r'.fingerprint :=
  congrArg (·.2.2) h

theorem Ledger.held_unique (hw : Ledger w) {id' : JobId} {j j' : Job} (hj : w.jobs id = some j)
    (hj' : w.jobs id' = some j') (hkept : j.kept = true) (hkept' : j'.kept = true)
    (h : j.record.idempotencyDigest = j'.record.idempotencyDigest) : id = id' := by
  have hid := hw.indexed hj hkept
  rw [h, hw.indexed hj' hkept'] at hid
  exact (Option.some.inj hid).symm

theorem Ledger.holder (hw : Ledger w) (hup : w.phase = .up)
    (h : w.disk id = some r ∨ ∃ j, w.jobs id = some j ∧ j.landing = some r) :
    ∃ j, w.jobs id = some j ∧ j.kept = true ∧ r.identity = j.record.identity := by
  rcases h with h | ⟨j, hj, hlanding⟩
  · obtain ⟨j, hj, hkept⟩ := hw.mapped hup h
    exact ⟨j, hj, hkept, (hw.filed hj).file r h⟩
  · obtain ⟨hb, -, write, rest, hwrites, rfl⟩ := Job.landing_some hlanding
    have hfiled := hw.filed hj
    refine ⟨j, hj, ?_, hfiled.kin write (by rw [hwrites]; exact List.mem_cons_self)⟩
    by_contra hkept
    have := (hfiled.forgotten (by simpa using hkept)).2
    exact absurd (this.symm.trans hb) (by simp)

theorem crashed_file {landed : JobId → Bool} (h : (w.crashed landed).disk id = some r) :
    w.disk id = some r ∨ ∃ j, w.jobs id = some j ∧ j.landing = some r := by
  simp only [crashed] at h
  split at h
  · next r' hr' =>
    split_ifs at h
    · cases h
      obtain ⟨j, hj, hlanding⟩ := Option.bind_eq_some_iff.mp hr'
      exact .inr ⟨j, hj, hlanding⟩
    · exact .inl h
  · exact .inl h

theorem Ledger.landing_none (hw : Ledger w) (hphase : w.phase ≠ .up) {j : Job} (hj : w.jobs id = some j) :
    j.landing = none := by
  rw [Job.landing, (hw.still hphase hj).1]

theorem ledger_crashed (hw : Ledger w) (landed : JobId → Bool) : Ledger (w.crashed landed) := by
  refine ledger_of_none (fun _ => rfl) (fun _ => rfl) (by simp [crashed, initial]) (fun h => ?_) fun h h' hsame => ?_
  · rcases crashed_file h with h | ⟨j, hj, hlanding⟩
    · exact hw.stored h
    · obtain ⟨-, -, write, rest, hwrites, rfl⟩ := Job.landing_some hlanding
      have hidentity := (hw.filed hj).kin write (by rw [hwrites]; exact List.mem_cons_self)
      exact ⟨hw.drawn hj, (jobId_of_identity hidentity).trans (hw.filed hj).named⟩
  · by_cases hup : w.phase = .up
    · obtain ⟨j, hj, hkept, hidentity⟩ := hw.holder hup (crashed_file h)
      obtain ⟨j', hj', hkept', hidentity'⟩ := hw.holder hup (crashed_file h')
      refine hw.held_unique hj hj' hkept hkept' ?_
      rw [← digest_of_identity hidentity, hsame, digest_of_identity hidentity']
    · have hfile : ∀ {id r}, (w.crashed landed).disk id = some r → w.disk id = some r := by
        intro id r h
        rcases crashed_file h with h | ⟨j, hj, hlanding⟩
        · exact h
        · rw [hw.landing_none hup hj] at hlanding
          cases hlanding
      exact hw.unique (hfile h) (hfile h') hsame

theorem apply_disk_self {job : Job} : (w.apply id job o).disk id = o.stored.or (w.disk id) := by
  cases h : o.stored with
  | none => simp [apply, h]
  | some r => simp [apply, h]

theorem apply_disk_ne {id' : JobId} {job : Job} (hne : id' ≠ id) : (w.apply id job o).disk id' = w.disk id' := by
  simp only [apply]
  split_ifs
  · exact Function.update_of_ne hne _ _
  · rfl

theorem filed_of_effect {bounded : Bool} {j : Job} {move : JobMove}
    (hj : Filed disk id j) (h : Job.Effect bounded now j move o) : Filed (o.stored.or disk) id o.job := by
  have hkept := Job.kept_of_effect h
  have hunstored : o.stored = none → o.stored.or disk = disk := fun hnone => by rw [hnone, Option.none_or]
  refine ⟨Job.sane_of_effect hj.sane h, ?_, hkept.kin hj.kin, fun r hr => ?_, fun htask => ?_, fun htask => ?_,
    fun hforgotten => ?_⟩
  · exact (jobId_of_identity hkept.identity).trans hj.named
  · rw [hkept.identity]
    rcases Option.or_eq_some_iff.mp hr with hstored | ⟨-, hr⟩
    · obtain ⟨-, -, write, rest, hwrites, rfl⟩ := Job.stored_of_effect h hstored
      exact hj.kin write (by rw [hwrites]; exact List.mem_cons_self)
    · exact hj.file r hr
  · exact (Job.entering_of_effect hj.entering hj.sane h htask).2.2 htask
  · obtain ⟨hbefore, hstored, -⟩ := Job.entering_of_effect hj.entering hj.sane h htask
    rw [hunstored hstored, hj.fresh hbefore]
  · rcases Job.forgotten_of_effect hj.sane h with hsame | ⟨htask, -, hbroken, hstored⟩
    · obtain ⟨hnone, hbroken⟩ := hj.forgotten (hsame ▸ hforgotten)
      have hstored : o.stored = none := by
        cases hs : o.stored with
        | none => rfl
        | some r => exact absurd (hbroken.symm.trans (Job.stored_of_effect h hs).1) (by simp)
      exact ⟨by rw [hunstored hstored, hnone], Job.broken_of_effect h hbroken⟩
    · exact ⟨by rw [hunstored hstored, hj.fresh htask], hbroken⟩

section Apply

variable {id : JobId} {job : Job} {o : Outcome}
variable {id' : JobId}

theorem Ledger.indexed_apply (hw : Ledger w) (hjob : w.jobs id = some job)
    (hidentity : o.job.record.identity = job.record.identity) (hkept : o.job.kept = true → job.kept = true) {j : Job}
    (hj : (w.apply id job o).jobs id' = some j) (hkeptj : j.kept = true) :
    (w.apply id job o).byDigest j.record.idempotencyDigest = some id' := by
  rcases update_jobs hj with ⟨rfl, rfl⟩ | ⟨hne, hj⟩
  · have hnot : ¬(job.kept && !o.job.kept) = true := by simp [hkeptj]
    simp only [apply, if_neg hnot, digest_of_identity hidentity]
    exact hw.indexed hjob (hkept hkeptj)
  · simp only [apply]
    split_ifs with hforgotten
    · have hjobkept : job.kept = true := (Bool.and_eq_true_iff.mp hforgotten).1
      rw [Function.update_of_ne fun h => hne (hw.held_unique hj hjob hkeptj hjobkept h)]
      exact hw.indexed hj hkeptj
    · exact hw.indexed hj hkeptj

theorem Ledger.found_apply (hw : Ledger w) (hjob : w.jobs id = some job) {d : Digest}
    (hd : (w.apply id job o).byDigest d = some id') : w.byDigest d = some id' ∧ (id' = id → o.job.kept = true) := by
  simp only [apply] at hd
  split_ifs at hd with hforgotten
  · by_cases heq : d = job.record.idempotencyDigest
    · subst heq
      rw [Function.update_self] at hd
      cases hd
    · rw [Function.update_of_ne heq] at hd
      refine ⟨hd, fun hid => ?_⟩
      obtain ⟨j, hj, -, rfl⟩ := hw.known hd
      subst hid
      rw [hjob] at hj
      cases hj
      exact absurd rfl heq
  · refine ⟨hd, fun hid => ?_⟩
    obtain ⟨j, hj, hkeptj, -⟩ := hw.known hd
    subst hid
    rw [hjob] at hj
    cases hj
    simpa [hkeptj] using hforgotten

theorem Ledger.holder_apply (hw : Ledger w) (hup : w.phase = .up) (hfiled : Filed (o.stored.or (w.disk id)) id o.job)
    {r : JobRecord} (hr : (w.apply id job o).disk id' = some r) :
    ∃ j, (w.apply id job o).jobs id' = some j ∧ j.kept = true ∧ r.identity = j.record.identity := by
  by_cases heq : id' = id
  · subst heq
    rw [apply_disk_self] at hr
    refine ⟨o.job, Function.update_self .., ?_, hfiled.file r hr⟩
    by_contra hforgotten
    exact absurd ((hfiled.forgotten (by simpa using hforgotten)).1.symm.trans hr) (by simp)
  · rw [apply_disk_ne heq] at hr
    obtain ⟨j, hj, hkept⟩ := hw.mapped hup hr
    exact ⟨j, (Function.update_of_ne heq _ _).trans hj, hkept, (hw.filed hj).file r hr⟩

theorem ledger_apply (hw : Ledger w) (hjob : w.jobs id = some job) (hup : w.phase = .up)
    (hfiled : Filed (o.stored.or (w.disk id)) id o.job) (hidentity : o.job.record.identity = job.record.identity)
    (hkept : o.job.kept = true → job.kept = true) : Ledger (w.apply id job o) := by
  have hjobs : ∀ {id' j}, (w.apply id job o).jobs id' = some j → Filed ((w.apply id job o).disk id') id' j ∧ id' ∈ w.used := by
    intro id' j hj
    rcases update_jobs hj with ⟨rfl, rfl⟩ | ⟨hne, hj⟩
    · rw [apply_disk_self]
      exact ⟨hfiled, hw.drawn hjob⟩
    · rw [apply_disk_ne hne]
      exact ⟨hw.filed hj, hw.drawn hj⟩
  refine ⟨fun hj => (hjobs hj).1, fun hj => (hjobs hj).2, fun hr => ?_, fun hr hr' hsame => ?_,
    hw.indexed_apply hjob hidentity hkept, fun {d id'} hd => ?_, fun _ _ _ hr => ?_, fun hnot => absurd hup hnot⟩
  · obtain ⟨j, hj, -, hsame⟩ := hw.holder_apply hup hfiled hr
    exact ⟨(hjobs hj).2, (jobId_of_identity hsame).trans (hjobs hj).1.named⟩
  · obtain ⟨j, hj, hkeptj, hid⟩ := hw.holder_apply hup hfiled hr
    obtain ⟨j', hj', hkeptj', hid'⟩ := hw.holder_apply hup hfiled hr'
    have hfirst := hw.indexed_apply hjob hidentity hkept hj hkeptj
    rw [← digest_of_identity hid, hsame, digest_of_identity hid', hw.indexed_apply hjob hidentity hkept hj' hkeptj']
      at hfirst
    exact (Option.some.inj hfirst).symm
  · obtain ⟨hd, hkepto⟩ := hw.found_apply hjob hd
    obtain ⟨j, hj, hkeptj, rfl⟩ := hw.known hd
    by_cases heq : id' = id
    · subst heq
      rw [hjob] at hj
      cases hj
      exact ⟨o.job, Function.update_self .., hkepto rfl, digest_of_identity hidentity⟩
    · exact ⟨j, (Function.update_of_ne heq _ _).trans hj, hkeptj, rfl⟩
  · obtain ⟨j, hj, hkeptj, -⟩ := hw.holder_apply hup hfiled hr
    exact ⟨j, hj, hkeptj⟩

end Apply

/-- A job that is added under a free digest keeps the ledger. -/
theorem ledger_extend (job : Job) (hw : Ledger w) (hnew : w.jobs id = none)
    (hfree : w.byDigest job.record.idempotencyDigest = none) (hkept : job.kept = true)
    (hjobs : w'.jobs = Function.update w.jobs id (some job))
    (hdigests : w'.byDigest = Function.update w.byDigest job.record.idempotencyDigest (some id))
    (hused : ∀ {id'}, id' ∈ w.used → id' ∈ w'.used) (hid : id ∈ w'.used) (hphase : w'.phase = w.phase)
    (hfiled : Filed (w'.disk id) id job) (hothers : ∀ {id'}, id' ≠ id → w'.disk id' = w.disk id')
    (hfile : ∀ {r}, w'.disk id = some r → ∃ r', w.disk id = some r' ∧ r.identity = r'.identity)
    (hstill : w.phase ≠ .up → job.writes = []) : Ledger w' := by
  have hjob : ∀ {id' j}, w'.jobs id' = some j → id' = id ∧ j = job ∨ id' ≠ id ∧ w.jobs id' = some j := by
    intro id' j hj
    rw [hjobs] at hj
    exact update_jobs hj
  have hbefore : ∀ {id' r}, w'.disk id' = some r → ∃ r', w.disk id' = some r' ∧ r.identity = r'.identity := by
    intro id' r hr
    by_cases heq : id' = id
    · subst heq
      exact hfile hr
    · rw [hothers heq] at hr
      exact ⟨r, hr, rfl⟩
  refine ⟨fun hj => ?_, fun hj => ?_, fun hr => ?_, fun hr hr' hsame => ?_, fun {id' j} hj hkeptj => ?_,
    fun {d id'} hd => ?_, fun hup id' r hr => ?_, fun hphase' _ _ hj => ?_⟩
  · rcases hjob hj with ⟨rfl, rfl⟩ | ⟨hne, hj⟩
    · exact hfiled
    · rw [hothers hne]
      exact hw.filed hj
  · rcases hjob hj with ⟨rfl, -⟩ | ⟨-, hj⟩
    · exact hid
    · exact hused (hw.drawn hj)
  · obtain ⟨r', hr', hidentity⟩ := hbefore hr
    exact ⟨hused (hw.stored hr').1, (jobId_of_identity hidentity).trans (hw.stored hr').2⟩
  · obtain ⟨first, hfirst, hidentity⟩ := hbefore hr
    obtain ⟨second, hsecond, hidentity'⟩ := hbefore hr'
    refine hw.unique hfirst hsecond ?_
    rw [← digest_of_identity hidentity, hsame, digest_of_identity hidentity']
  · rw [hdigests]
    rcases hjob hj with ⟨rfl, rfl⟩ | ⟨-, hj⟩
    · exact Function.update_self ..
    · have hindexed := hw.indexed hj hkeptj
      rw [Function.update_of_ne fun h => by rw [h, hfree] at hindexed; cases hindexed]
      exact hindexed
  · rw [hdigests] at hd
    by_cases heq : d = job.record.idempotencyDigest
    · subst heq
      rw [Function.update_self] at hd
      cases hd
      exact ⟨job, by rw [hjobs, Function.update_self], hkept, rfl⟩
    · rw [Function.update_of_ne heq] at hd
      obtain ⟨j, hj, hkeptj, rfl⟩ := hw.known hd
      have hne : id' ≠ id := fun h => by rw [h, hnew] at hj; cases hj
      exact ⟨j, by rw [hjobs, Function.update_of_ne hne, hj], hkeptj, rfl⟩
  · by_cases heq : id' = id
    · exact ⟨job, by rw [heq, hjobs, Function.update_self], hkept⟩
    · rw [hothers heq] at hr
      obtain ⟨j, hj, hkeptj⟩ := hw.mapped (hphase ▸ hup) hr
      exact ⟨j, by rw [hjobs, Function.update_of_ne heq, hj], hkeptj⟩
  · rw [hphase] at hphase'
    rcases hjob hj with ⟨-, rfl⟩ | ⟨-, hj⟩
    · exact ⟨hstill hphase', hkept⟩
    · exact hw.still hphase' hj

theorem ledger_enter {input : StartInput} {key : EnvironmentKey} (hw : Ledger w) (hup : w.phase = .up)
    (hnone : w.byDigest (digest input.idempotencyKey) = none) (hnew : id ∉ w.used) :
    Ledger (w.enter digest now input key id) := by
  have hdisk : w.disk id = none := by
    cases h : w.disk id with
    | none => rfl
    | some r => exact absurd (hw.stored h).1 hnew
  have hjobs : w.jobs id = none := by
    cases h : w.jobs id with
    | none => rfl
    | some j => exact absurd (hw.drawn h) hnew
  refine ledger_extend ((Job.admitted (newRecord digest now input key id)).persist now .admission) hw hjobs hnone rfl
    rfl rfl (fun h => List.mem_cons_of_mem _ h) List.mem_cons_self rfl ?_ (fun _ => rfl) (fun hr => ?_)
    fun hphase => absurd hup hphase
  · refine ⟨Job.sane_admitted _, rfl, ?_, fun r hr => ?_, fun _ => ⟨_, rfl, rfl⟩, fun _ => hdisk, fun h => nomatch h⟩
    · intro write hwrite
      cases List.mem_singleton.mp hwrite
      rfl
    · exact absurd (hdisk.symm.trans hr) (by simp)
  · exact absurd (hdisk.symm.trans hr) (by simp)

theorem Ledger.read (hw : Ledger w) {file : JobRecord} (hfile : w.disk id = some file) :
    parsePersisted file.snapshot (fileName id) = if file.fits && file.sound then some file else none := by
  have hnamed := (hw.stored hfile).2
  subst hnamed
  exact JobRecord.parsePersisted_snapshot file

theorem filed_loaded {task : Task} (h : task = .done ∨ task = .resuming)
    (hfile : disk = some r) : Filed disk r.jobId (.loaded r task) := by
  refine ⟨Job.sane_loaded r h, rfl, fun _ hwrite => (by cases hwrite), fun r' hr' => ?_, fun htask => ?_, fun htask => ?_,
    fun hkept => nomatch hkept⟩
  · rw [hfile] at hr'
    cases hr'
    rfl
  · rcases h with rfl | rfl <;> cases htask
  · rcases h with rfl | rfl <;> cases htask

theorem ledger_take {file : JobRecord} {ok : Bool} (hw : Ledger w) (hnew : w.jobs id = none)
    (hfile : w.disk id = some file) : Ledger (w.take cfg now id file ok) := by
  obtain ⟨hdrawn, hnamed⟩ := hw.stored hfile
  subst hnamed
  have hinsert : ∀ {task : Task}, task = .done ∨ task = .resuming → w.byDigest file.idempotencyDigest = none →
      Ledger (w.insert file.jobId (.loaded file task)) := by
    intro task htask hfree
    exact ledger_extend (.loaded file task) hw hnew hfree rfl rfl rfl (fun h => h) hdrawn rfl
      (filed_loaded htask hfile) (fun _ => rfl) (fun hr => ⟨_, hr, rfl⟩) fun _ => rfl
  unfold take
  split_ifs with hknown hterminal hresumable hactive hok
  · exact ledger_crashed hw _
  · exact hinsert (.inl rfl) (by simpa using hknown)
  · exact ledger_crashed hw _
  · obtain ⟨h1, h2, h3, h4, h5, h6, h7, h8⟩ := hinsert (.inr rfl) (by simpa using hknown)
    exact ⟨h1, h2, h3, h4, h5, h6, h7, h8⟩
  · have hfree : w.byDigest file.idempotencyDigest = none := by simpa using hknown
    have hwritten : Function.update w.disk file.jobId (some (restarted now file)) file.jobId = some (restarted now file) :=
      Function.update_self ..
    refine ledger_extend (.loaded (restarted now file) .done) hw hnew hfree rfl rfl rfl (fun h => h) hdrawn rfl
      (filed_loaded (.inl rfl) hwritten) (fun hne => Function.update_of_ne hne _ _) (fun hr => ?_) fun _ => rfl
    cases Option.some.inj (hwritten.symm.trans hr)
    exact ⟨file, hfile, rfl⟩
  · exact ledger_crashed hw _

/-- **One move.** -/
theorem ledger_step (hw : Ledger w) (h : w.step digest cfg m = some w') : Ledger w' := by
  cases change_of_step h with
  | refused => exact hw
  | replayed =>
    exact ⟨hw.filed, hw.drawn, hw.stored, hw.unique, hw.indexed, hw.known, hw.mapped, hw.still⟩
  | entered _ hup _ hadmits hnew => exact ledger_enter hw hup (admits_fresh hadmits).2.1 hnew
  | @moved id move job o _ hup hjob heffect =>
    exact ledger_apply hw hjob hup (filed_of_effect (hw.filed hjob) heffect) (Job.kept_of_effect heffect).identity
      (Job.held_of_effect (hw.filed hjob).sane heffect)
  | @reconciled reason id job _ hup _ _ hjob =>
    have hfiled := hw.filed hjob
    have hkept : Job.Kept job (job.reconcile m.now reason).job := Job.kept_persist rfl rfl
    have hnext : Filed (w.disk id) id (job.reconcile m.now reason).job := by
      refine ⟨Job.sane_reconcile hfiled.sane reason, hfiled.named, hkept.kin hfiled.kin, hfiled.file, fun htask => ?_,
        hfiled.fresh, hfiled.forgotten⟩
      obtain ⟨write, hhead, hadmission⟩ := hfiled.entering htask
      exact ⟨write, Job.head_persist _ _ hhead, hadmission⟩
    obtain ⟨h1, h2, h3, h4, h5, h6, h7, h8⟩ := ledger_apply (o := job.reconcile m.now reason) hw hjob hup hnext rfl fun h => h
    exact ⟨h1, h2, h3, h4, h5, h6, h7, h8⟩
  | reported => exact ⟨hw.filed, hw.drawn, hw.stored, hw.unique, hw.indexed, hw.known, hw.mapped, hw.still⟩
  | crashed => exact ledger_crashed hw _
  | booted _ hdown =>
    exact ⟨hw.filed, hw.drawn, hw.stored, hw.unique, hw.indexed, hw.known, (fun hup => nomatch hup),
      fun _ => hw.still (by rw [hdown]; simp)⟩
  | loaded _ _ hnew hfile =>
    unfold loadFile
    rw [hw.read hfile]
    split
    · exact ledger_crashed hw _
    · next value hvalue =>
      split_ifs at hvalue
      cases hvalue
      exact ledger_take hw hnew hfile
  | opened _ hloading hall =>
    refine ⟨hw.filed, hw.drawn, hw.stored, hw.unique, hw.indexed, hw.known, fun _ {id r} hr => ?_,
      fun hnot => absurd rfl hnot⟩
    obtain ⟨j, hj⟩ := Option.isSome_iff_exists.mp
      ((hall id (hw.stored hr).1).resolve_left (by rw [show w.disk id = some r from hr]; simp))
    exact ⟨j, hj, (hw.still (by rw [hloading]; simp) hj).2⟩

end JobRunner

end ADT.Runner
