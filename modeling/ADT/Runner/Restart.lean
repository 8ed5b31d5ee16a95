import ADT.Runner.Reload

/-!
# Runner.Restart — what a restart finds

The records of a job come to its file in the order in which they are written, and none that is terminal is followed by
one that is not.  A job whose file may stay active has the slot, is being reconciled, or has found the storage
unhealthy, so that no other job is admitted beside it and a restart finds one active file at most.
-/

namespace ADT.Runner

open Guarded

def Task.left : Task → Bool
  | .cleaning | .draining | .done => true
  | _ => false

namespace Job

variable {bounded : Bool} {now : Instant} {j : Job} {m : JobMove} {o : Outcome} {id : JobId} {disk : Option JobRecord}

/-- The states that a file has and may come to have. -/
def chain (disk : Option JobRecord) (j : Job) : List RecordState :=
  (disk.toList ++ if j.broken then [] else j.writes.map (·.record)).map (·.state)

/-- The file is active or may still be so. -/
def Active (disk : Option JobRecord) (j : Job) : Prop := ∃ s ∈ j.chain disk, s.terminal = false

/-- No terminal state is followed by one that is not. -/
def Ordered (states : List RecordState) : Prop := states.Pairwise fun s t => s.terminal = true → t.terminal = true

/-- A record of a job without a failed write comes after those that are written. -/
def InOrder (disk : Option JobRecord) (j : Job) : Prop := j.broken = false → Ordered (j.chain disk ++ [j.record.state])

theorem ordered_append_iff {states : List RecordState} {s : RecordState} :
    Ordered (states ++ [s]) ↔ Ordered states ∧ ((∃ t ∈ states, t.terminal = true) → s.terminal = true) := by
  simp only [Ordered, List.pairwise_append, List.pairwise_singleton, true_and, List.mem_singleton, forall_eq]
  constructor
  · rintro ⟨h, hlast⟩
    exact ⟨h, fun ⟨t, ht, hterminal⟩ => hlast t ht hterminal⟩
  · rintro ⟨h, hlast⟩
    exact ⟨h, fun t ht hterminal => hlast ⟨t, ht, hterminal⟩⟩

variable {job : Job} {w : Write} {rest : List Write} {landed : Bool} {task : Task} {unhealthy : Prop}

theorem InOrder.change (hj : j.InOrder disk) (hbroken : job.broken = j.broken) (hwrites : job.writes = j.writes)
    (hterminal : j.broken = false → j.record.state.terminal = true → job.record.state.terminal = true) :
    job.InOrder disk := by
  intro hb
  rw [hbroken] at hb
  obtain ⟨hstates, hlast⟩ := ordered_append_iff.mp (hj hb)
  have hchain : job.chain disk = j.chain disk := by rw [chain, chain, hbroken, hwrites]
  rw [hchain]
  exact ordered_append_iff.mpr ⟨hstates, fun h => hterminal hb (hlast h)⟩

theorem chain_persist (a : Awaits) (hb : j.broken = false) : (persist now j a).chain disk =
    j.chain disk ++ [j.record.state] := by
  simp [chain, persist, hb]

theorem InOrder.persist (hj : j.InOrder disk) (a : Awaits) : (persist now j a).InOrder disk := by
  intro hb
  have hb : j.broken = false := hb
  rw [chain_persist a hb]
  exact ordered_append_iff.mpr ⟨hj hb, fun ⟨t, ht, hterminal⟩ => by
    rcases List.mem_append.mp ht with ht | ht
    · exact (ordered_append_iff.mp (hj hb)).2 ⟨t, ht, hterminal⟩
    · cases List.mem_singleton.mp ht
      exact hterminal⟩

theorem active_congr (hbroken : job.broken = j.broken) (hwrites : job.writes = j.writes) :
    job.Active disk ↔ j.Active disk := by
  rw [Active, Active, chain, chain, hbroken, hwrites]

theorem active_persist_terminal (a : Awaits) (hterminal : j.record.state.terminal = true) :
    (persist now j a).Active disk ↔ j.Active disk := by
  by_cases hb : j.broken = true
  · simp [Active, chain, Job.persist, hb]
  · rw [Active, Active, chain_persist a (by simpa using hb)]
    simp [hterminal]

theorem active_of_open (hj : j.InOrder disk) (hb : j.broken = false) (hfile : j.chain disk ≠ [])
    (hopen : j.record.state.terminal = false) : j.Active disk := by
  obtain ⟨s, hs⟩ := List.exists_mem_of_ne_nil _ hfile
  refine ⟨s, hs, ?_⟩
  by_contra hterminal
  have hlast := (ordered_append_iff.mp (hj hb)).2 ⟨s, hs, by simpa using hterminal⟩
  rw [hopen] at hlast
  cases hlast

theorem not_active_of_head {r : JobRecord} (hj : j.InOrder (some r)) (hterminal : r.state.terminal = true) :
    ¬j.Active (some r) := by
  rintro ⟨s, hs, hopen⟩
  by_cases hb : j.broken = true
  · simp only [chain, hb, if_true, List.append_nil, Option.toList_some, List.map_cons, List.map_nil,
      List.mem_singleton] at hs
    subst hs
    rw [hopen] at hterminal
    cases hterminal
  · have hb : j.broken = false := by simpa using hb
    have hordered := (ordered_append_iff.mp (hj hb)).1
    simp only [chain, hb, Option.toList_some, List.cons_append, List.nil_append, List.map_cons, Bool.false_eq_true,
      if_false] at hs hordered
    rcases List.mem_cons.mp hs with rfl | hs
    · rw [hopen] at hterminal
      cases hterminal
    · have := (List.pairwise_cons.mp hordered).1 s hs hterminal
      rw [hopen] at this
      cases this

theorem inOrder_of_broken (hb : j.broken = true) : j.InOrder disk := fun h => absurd (hb.symm.trans h) (by simp)

theorem InOrder.pop (hj : j.InOrder disk) (h : j.writes = w :: rest) :
    InOrder (some w.record) { j with writes := rest, broken := j.broken || !landed } := by
  intro hbroken
  have hb : j.broken = false := (Bool.or_eq_false_iff.mp hbroken).1
  have hordered := hj hb
  rw [Ordered, chain, h] at hordered
  rw [Ordered, chain, show (j.broken || !landed) = false from hbroken]
  simp only [hb, Bool.false_eq_true, if_false, List.map_cons, List.map_append, List.append_assoc] at hordered ⊢
  exact hordered.sublist (List.sublist_append_right _ _)

theorem Reloadable.open_of (hj : j.Reloadable id) (hopen : j.task.ended = false) (hfailed : j.record.state ≠ .failed) :
    j.record.state.terminal = false := by
  cases hstate : j.record.state with
  | failed => exact absurd hstate hfailed
  | completed => exact absurd (hj.placed (by rw [hstate]; rfl)) (by rw [hopen]; simp)
  | cancelled => exact absurd (hj.placed (by rw [hstate]; rfl)) (by rw [hopen]; simp)
  | _ => rfl

theorem InOrder.terminate (hj : j.InOrder disk) (hbroken : job.broken = j.broken)
    (hwrites : job.writes = j.writes) (hterminal : job.record.state.terminal = true) :
    (Job.terminate now job task).InOrder disk := by
  have hchanged : InOrder disk { job with task := task, terminalPending := true } :=
    hj.change hbroken hwrites fun _ _ => hterminal
  exact hchanged.persist .terminal

theorem conclude_terminal (result : TurnResult) : (j.conclude result).record.state.terminal = true := by
  cases result <;> rfl

theorem inOrder_wake {ok : Bool} (hj : j.InOrder disk) (h : j.writes = w :: rest) :
    (wake now { j with writes := rest, broken := j.broken || !(ok && !j.broken && w.record.fits) } w.awaits
      (ok && !j.broken && w.record.fits)).job.InOrder
      ((if ok && !j.broken && w.record.fits then some w.record else none).or disk) := by
  cases hlanded : (ok && !j.broken && w.record.fits) with
  | false => exact inOrder_of_broken (broken_wake _ _ (by simp))
  | true =>
    have hpop : InOrder (some w.record) { j with writes := rest, broken := j.broken || !true } := hj.pop h
    show (wake now { j with writes := rest, broken := j.broken || !true } w.awaits true).job.InOrder (some w.record)
    cases w.awaits with
    | admission => exact hpop.change rfl rfl fun _ h => h
    | started => exact hpop.change rfl rfl fun _ h => h
    | cancel => exact hpop.change rfl rfl fun _ h => h
    | reconcile => exact hpop.change rfl rfl fun _ h => h
    | terminal =>
      simp only [wake, afterTerminal]
      split <;> exact hpop.change rfl rfl fun _ h => h
    | running =>
      simp only [wake, afterRunning, Bool.not_true, Bool.false_eq_true, if_false]
      split_ifs
      · exact hpop.terminate rfl rfl rfl
      · exact hpop.change rfl rfl fun _ h => h

/-- Every move keeps the record and its file in order. -/
theorem inOrder_of_effect (hj : j.InOrder disk) (hr : j.Reloadable id) (h : Effect bounded now j m o)
    (hstates : j.misstates m = false) : o.job.InOrder (o.stored.or disk) := by
  cases h with
  | write hwrites => exact inOrder_wake hj hwrites
  | prepareCancelled _ _ => exact hj.terminate rfl rfl rfl
  | prepareReady _ _ => exact hj.change rfl rfl fun _ h => h
  | prepareFailed _ _ => exact hj.terminate rfl rfl rfl
  | invalid _ => exact hj.terminate rfl rfl rfl
  | validCancelled _ _ => exact hj.terminate rfl rfl rfl
  | valid htask _ =>
    have hrun : InOrder disk { j.setState .running with task := .savingRunning } := by
      refine hj.change rfl rfl fun hb hterminal => ?_
      have hopen := hr.open_of (by rw [htask]; rfl) (by simpa [misstates, hb] using hstates)
      exact absurd (hopen.symm.trans hterminal) (by simp)
    exact hrun.persist .running
  | @started threadId turnId _ =>
    have hnamed : InOrder disk { j with
        record := { j.record with threadId := some threadId, turnId := some turnId }, turn := .inProgress true } :=
      hj.change rfl rfl fun _ h => h
    exact hnamed.persist .started
  | late _ _ => exact hj.change rfl rfl fun _ h => h
  | returned _ _ => exact hj.change rfl rfl fun _ h => h
  | rejectedStarted _ _ => exact hj.change rfl rfl fun _ _ => rfl
  | rejected _ _ => exact hj.terminate rfl rfl rfl
  | proceedFailed _ _ _ => exact hj.change rfl rfl fun _ _ => rfl
  | proceedForced _ _ _ _ => exact hj.change rfl rfl fun _ h => h
  | proceedCancelled _ _ _ _ _ => exact hj.terminate rfl rfl rfl
  | concluded _ _ _ _ _ =>
    exact hj.terminate (conclude_unchanged _ _).1 (conclude_unchanged _ _).2.1 (conclude_terminal _)
  | timedOut _ => exact hj.terminate rfl rfl rfl
  | interrupted _ =>
    have hclosing : InOrder disk { j with task := .closing, terminalPending := true } := hj.change rfl rfl fun _ h => h
    exact hclosing.persist .terminal
  | forced _ _ _ => exact hj.change rfl rfl fun _ h => h
  | stuck _ _ _ => exact hj.change rfl rfl fun _ h => h
  | quiesced _ _ => exact hj.change rfl rfl fun _ h => h
  | unobserved _ => exact hj.terminate rfl rfl rfl
  | observedCancelled _ _ => exact hj.terminate rfl rfl rfl
  | observed _ _ =>
    exact hj.terminate (conclude_unchanged _ _).1 (conclude_unchanged _ _).2.1 (conclude_terminal _)
  | cancelAgain _ _ => exact hj
  | cancelled _ hterminal _ =>
    have hcancel : InOrder disk { j.setState .cancelling with terminalPending := true } :=
      hj.change rfl rfl fun _ h => absurd (hterminal.symm.trans h) (by simp)
    exact hcancel.persist .cancel

/-! ### When a job may leave the slot -/

/-- What a last write of a job writes. -/
structure Closing (j : Job) : Prop where
  written : ∀ w ∈ j.writes, w.awaits = .terminal ∨ w.awaits = .reconcile → w.record.state.terminal = true
  failing : j.task = .failing → j.record.state.terminal = true

theorem Closing.change (hj : j.Closing) (hwrites : ∀ w ∈ job.writes, w ∈ j.writes)
    (htask : job.task = .failing → job.record.state.terminal = true) : job.Closing :=
  ⟨fun w hw => hj.written w (hwrites w hw), htask⟩

theorem Closing.persist (hj : j.Closing) (a : Awaits)
    (hterminal : a = .terminal ∨ a = .reconcile → j.record.state.terminal = true) : (persist now j a).Closing := by
  refine ⟨fun w hw ha => ?_, hj.failing⟩
  rcases List.mem_append.mp hw with hw | hw
  · exact hj.written w hw ha
  · cases List.mem_singleton.mp hw
    exact hterminal ha

theorem Closing.terminate (hj : j.Closing) (hwrites : ∀ w ∈ job.writes, w ∈ j.writes)
    (hterminal : job.record.state.terminal = true) : (Job.terminate now job task).Closing := by
  have hchanged : Closing { job with task := task, terminalPending := true } := hj.change hwrites fun _ => hterminal
  exact hchanged.persist .terminal fun _ => hterminal

theorem closing_settled (hj : j.Closing) (landed : Bool) : (j.settled landed).Closing := by
  cases landed with
  | true => exact hj.change (fun _ h => h) hj.failing
  | false => exact hj.change (fun _ h => h) fun _ => rfl

theorem closing_wake {broken : Bool} (hj : j.Closing) (h : j.writes = w :: rest) :
    (wake now { j with writes := rest, broken := broken } w.awaits landed).job.Closing := by
  have hpop : Closing { j with writes := rest, broken := broken } :=
    hj.change (fun w' hw' => by rw [h]; exact List.mem_cons_of_mem _ hw') hj.failing
  cases w.awaits with
  | admission =>
    simp only [wake]
    split <;> exact hpop.change (fun _ h => h) fun h => by cases h
  | started => exact hpop.change (fun _ h => h) hpop.failing
  | cancel => exact closing_settled hpop landed
  | reconcile => exact closing_settled hpop landed
  | terminal =>
    simp only [wake, afterTerminal]
    split <;> exact (closing_settled hpop landed).change (fun _ h => h) fun h => by cases h
  | running =>
    simp only [wake, afterRunning]
    split_ifs
    · exact hpop.change (fun _ h => h) fun h => by cases h
    · exact hpop.terminate (fun _ h => h) rfl
    · exact hpop.change (fun _ h => h) fun h => by cases h

theorem closing_of_effect (hj : j.Closing) (h : Effect bounded now j m o) : o.job.Closing := by
  cases h with
  | write hwrites => exact closing_wake hj hwrites
  | prepareCancelled _ _ => exact hj.terminate (fun _ h => h) rfl
  | prepareReady _ _ => exact hj.change (fun _ h => h) fun h => by cases h
  | prepareFailed _ _ => exact hj.terminate (fun _ h => h) rfl
  | invalid _ => exact hj.terminate (fun _ h => h) rfl
  | validCancelled _ _ => exact hj.terminate (fun _ h => h) rfl
  | valid _ _ =>
    have hrun : Closing { j.setState .running with task := .savingRunning } := hj.change (fun _ h => h) fun h => by cases h
    exact hrun.persist .running fun h => by simp at h
  | @started threadId turnId _ =>
    have hnamed : Closing { j with
        record := { j.record with threadId := some threadId, turnId := some turnId }, turn := .inProgress true } :=
      hj.change (fun _ h => h) hj.failing
    exact hnamed.persist .started fun h => by simp at h
  | late _ _ => exact hj.change (fun _ h => h) hj.failing
  | returned _ _ => exact hj.change (fun _ h => h) fun h => by cases h
  | rejectedStarted _ _ => exact hj.change (fun _ h => h) fun _ => rfl
  | rejected _ _ => exact hj.terminate (fun _ h => h) rfl
  | proceedFailed _ _ _ => exact hj.change (fun _ h => h) fun h => by cases h
  | proceedForced _ _ _ _ => exact hj.change (fun _ h => h) fun h => by cases h
  | proceedCancelled _ _ _ _ _ => exact hj.terminate (fun _ h => h) rfl
  | concluded _ _ _ _ _ =>
    exact hj.terminate (fun _ h => (conclude_unchanged _ _).2.1 ▸ h) (conclude_terminal _)
  | timedOut _ => exact hj.terminate (fun _ h => h) rfl
  | interrupted htask =>
    have hclosing : Closing { j with task := .closing, terminalPending := true } :=
      hj.change (fun _ h => h) fun h => by cases h
    exact hclosing.persist .terminal fun _ => hj.failing htask
  | forced _ _ _ => exact hj.change (fun _ h => h) fun h => by cases h
  | stuck _ _ _ => exact hj.change (fun _ h => h) fun h => by cases h
  | quiesced _ _ => exact hj.change (fun _ h => h) fun h => by cases h
  | unobserved _ => exact hj.terminate (fun _ h => h) rfl
  | observedCancelled _ _ => exact hj.terminate (fun _ h => h) rfl
  | observed _ _ => exact hj.terminate (fun _ h => (conclude_unchanged _ _).2.1 ▸ h) (conclude_terminal _)
  | cancelAgain _ _ => exact hj
  | cancelled _ hterminal _ =>
    have hcancel : Closing { j.setState .cancelling with terminalPending := true } := by
      refine hj.change (fun _ h => h) fun htask => ?_
      exact absurd (hterminal.symm.trans (hj.failing htask)) (by simp)
    exact hcancel.persist .cancel fun h => by simp at h

theorem settled_unchanged (landed : Bool) :
    (j.settled landed).broken = j.broken ∧ (j.settled landed).writes = j.writes := by
  cases landed <;> exact ⟨rfl, rfl⟩

theorem active_terminate (hbroken : job.broken = j.broken) (hwrites : job.writes = j.writes)
    (hterminal : job.record.state.terminal = true) : (terminate now job task).Active disk ↔ j.Active disk := by
  have hpersist : (terminate now job task).Active disk ↔ Active disk { job with task := task, terminalPending := true } :=
    active_persist_terminal .terminal hterminal
  exact hpersist.trans (active_congr hbroken hwrites)

theorem active_wake {a : Awaits} : (wake now j a landed).job.Active disk ↔ j.Active disk := by
  have hsettled : (j.settled landed).Active disk ↔ j.Active disk :=
    active_congr (settled_unchanged landed).1 (settled_unchanged landed).2
  cases a with
  | admission =>
    simp only [wake]
    split <;> exact active_congr rfl rfl
  | started => exact active_congr rfl rfl
  | cancel => exact hsettled
  | reconcile => exact hsettled
  | terminal =>
    simp only [wake, afterTerminal]
    split <;> exact (active_congr rfl rfl).trans hsettled
  | running =>
    simp only [wake, afterRunning]
    split_ifs
    · exact active_congr rfl rfl
    · exact active_terminate rfl rfl rfl
    · exact active_congr rfl rfl

theorem active_pop (h : j.writes = w :: rest) (hb : landed = true → j.broken = false)
    (hactive : Active ((if landed then some w.record else none).or disk)
      { j with writes := rest, broken := j.broken || !landed }) : j.Active disk := by
  obtain ⟨s, hs, hopen⟩ := hactive
  refine ⟨s, ?_, hopen⟩
  cases landed with
  | true =>
    rw [chain, hb rfl, h]
    simp only [chain, hb rfl, Bool.not_true, Bool.or_false, Bool.false_eq_true, if_false] at hs ⊢
    rw [List.map_append, List.map_cons, List.map_cons]
    exact List.mem_append_right _ hs
  | false =>
    simp only [chain, Bool.not_false, Bool.or_true, if_true, Bool.false_eq_true, if_false, Option.none_or,
      List.append_nil] at hs
    rw [chain, List.map_append]
    exact List.mem_append_left _ hs

theorem active_persist (hj : j.InOrder disk) {a : Awaits} (hbroken : job.broken = j.broken)
    (hwrites : job.writes = j.writes) (hopen : j.broken = false → job.record.state.terminal = false →
      j.chain disk ≠ [] ∧ j.record.state.terminal = false) : (Job.persist now job a).Active disk → j.Active disk := by
  intro hactive
  by_cases hb : j.broken = true
  · have hsame : (Job.persist now job a).chain disk = j.chain disk := by
      simp [chain, Job.persist, hbroken, hb]
    rw [Active, hsame] at hactive
    exact hactive
  · have hb : j.broken = false := by simpa using hb
    cases hterminal : job.record.state.terminal with
    | true => exact (active_congr hbroken hwrites).mp ((active_persist_terminal a hterminal).mp hactive)
    | false =>
      obtain ⟨hfile, hbefore⟩ := hopen hb hterminal
      exact active_of_open hj hb hfile hbefore

theorem active_of_effect (hj : j.InOrder disk) (hr : j.Reloadable id) (hsane : j.Sane) (hclosing : j.Closing)
    (hfile : j.kept = true → j.broken = false → j.chain disk ≠ []) (h : Effect bounded now j m o)
    (hstates : j.misstates m = false) : o.job.Active (o.stored.or disk) → j.Active disk := by
  cases h with
  | write hwrites =>
    refine fun hactive => active_pop hwrites (fun hlanded => ?_) (active_wake.mp hactive)
    simp only [Bool.and_eq_true, Bool.not_eq_true'] at hlanded
    exact hlanded.1.2
  | valid htask _ =>
    have hkept := hsane.kept_of (by rw [htask]; simp)
    refine active_persist hj rfl rfl fun hb _ => ⟨hfile hkept hb, ?_⟩
    exact hr.open_of (by rw [htask]; rfl) (by simpa [misstates, hb] using hstates)
  | started hturn =>
    have hturns := hsane.turn (by rw [hturn]; simp)
    have hkept := hsane.kept_of fun hdone => by rw [hdone] at hturns; cases hturns
    exact active_persist hj rfl rfl fun hb hopen => ⟨hfile hkept hb, hopen⟩
  | cancelled hkept hterminal _ =>
    refine fun hactive => active_persist hj ?_ ?_ (fun hb _ => ⟨hfile hkept hb, hterminal⟩) hactive
    · rfl
    · rfl
  | interrupted htask => exact (active_terminate rfl rfl (hclosing.failing htask)).mp
  | prepareReady _ _ => exact (active_congr rfl rfl).mp
  | late _ _ => exact (active_congr rfl rfl).mp
  | returned _ _ => exact (active_congr rfl rfl).mp
  | rejectedStarted _ _ => exact (active_congr rfl rfl).mp
  | proceedFailed _ _ _ => exact (active_congr rfl rfl).mp
  | proceedForced _ _ _ _ => exact (active_congr rfl rfl).mp
  | forced _ _ _ => exact (active_congr rfl rfl).mp
  | stuck _ _ _ => exact (active_congr rfl rfl).mp
  | quiesced _ _ => exact (active_congr rfl rfl).mp
  | cancelAgain _ _ => exact fun h => h
  | concluded _ _ _ _ _ =>
    exact (active_terminate (conclude_unchanged _ _).1 (conclude_unchanged _ _).2.1 (conclude_terminal _)).mp
  | observed _ _ =>
    exact (active_terminate (conclude_unchanged _ _).1 (conclude_unchanged _ _).2.1 (conclude_terminal _)).mp
  | _ => exact (active_terminate rfl rfl rfl).mp

/-- The task is past its turn, or has to leave it. -/
def Leaving (j : Job) : Prop := j.forcedTerminal = true ∨ j.task.left = true

theorem damages_of_last {ok : Bool} (hj : j.InOrder disk) (hclosing : j.Closing)
    (h : j.writes = w :: rest) (ha : w.awaits = .terminal ∨ w.awaits = .reconcile)
    (hactive : (wake now { j with writes := rest, broken := j.broken || !(ok && !j.broken && w.record.fits) } w.awaits
      (ok && !j.broken && w.record.fits)).job.Active
      ((if ok && !j.broken && w.record.fits then some w.record else none).or disk)) :
    (ok && !j.broken && w.record.fits) = false := by
  by_contra hlanded
  rw [Bool.not_eq_false] at hlanded
  have hinOrder : (wake now { j with writes := rest, broken := j.broken || !(ok && !j.broken && w.record.fits) } w.awaits
      (ok && !j.broken && w.record.fits)).job.InOrder
      ((if ok && !j.broken && w.record.fits then some w.record else none).or disk) := inOrder_wake hj h
  rw [hlanded] at hactive hinOrder
  have hterminal := hclosing.written w (by rw [h]; exact List.mem_cons_self) ha
  exact not_active_of_head hinOrder hterminal hactive

theorem reconciles_of_effect (hsane : j.Sane) (h : Effect bounded now j m o) :
    o.job.reconciles = j.reconciles ∨ j.EndsReconcile m := by
  cases ends_of_effect hsane h with
  | goesOn _ hsame => exact .inl hsame
  | admission _ _ _ hsame _ => exact .inl hsame
  | reconcile _ _ hlast => exact .inr hlast

/-- What the moves of a job on file are known to keep. -/
structure Orderly (disk : Option JobRecord) (id : JobId) (j : Job) : Prop where
  filed : JobRunner.Filed disk id j
  reloadable : j.Reloadable id
  inOrder : j.InOrder disk
  closing : j.Closing
  onFile : j.kept = true → j.broken = false → j.chain disk ≠ []

section

variable (hj : j.Orderly disk id)

include hj

theorem Orderly.active_of (h : Effect bounded now j m o) (hstates : j.misstates m = false) :
    o.job.Active (o.stored.or disk) → j.Active disk :=
  active_of_effect hj.inOrder hj.reloadable hj.filed.sane hj.closing hj.onFile h hstates

theorem Orderly.damages_of (h : Effect bounded now j m o) (hlast : j.EndsReconcile m)
    (hactive : o.job.Active (o.stored.or disk)) : o.damages = true := by
  obtain ⟨ok, w, rest, rfl, hwrites, ha⟩ := hlast
  cases h with
  | @write _ w' rest' hwrites' =>
    rw [hwrites] at hwrites'
    cases hwrites'
    have hfailed := damages_of_last hj.inOrder hj.closing hwrites (.inr ha) hactive
    simp [wake, ha, hfailed]

/-- A job leaves an active file behind only after a failed write. -/
theorem Orderly.leaving_of (herror : j.persistenceError = true → unhealthy)
    (h : Effect bounded now j m o) (hleaving : o.job.Leaving) (hactive : o.job.Active (o.stored.or disk)) :
    j.Leaving ∨ unhealthy ∨ o.damages = true := by
  cases h with
  | @write ok w rest hwrites =>
    cases hlanded : (ok && !j.broken && w.record.fits) with
    | false =>
      cases ha : w.awaits with
      | admission =>
        -- a job that is not admitted has no file
        have htask := (hj.filed.sane.awaiting hwrites (by rw [ha]; rfl)).1
        rw [ha] at htask
        have hfresh := hj.filed.fresh (admitting_of_awaits htask)
        simp [hlanded, ha, wake, Active, chain, hfresh] at hactive
      | running => exact .inr (.inr rfl)
      | started => exact .inr (.inr rfl)
      | cancel => exact .inr (.inr rfl)
      | reconcile => exact .inr (.inr rfl)
      | terminal =>
        refine .inr (.inr ?_)
        simp only [wake, afterTerminal]
        split <;> rfl
    | true =>
      have hlast : ¬(w.awaits = .terminal ∨ w.awaits = .reconcile) := fun ha => by
        rw [damages_of_last hj.inOrder hj.closing hwrites ha hactive] at hlanded
        cases hlanded
      left
      rw [hlanded] at hleaving
      cases ha : w.awaits with
      | admission =>
        rw [ha] at hleaving
        exact hleaving.imp (fun h => h) fun h => by cases h
      | started =>
        rw [ha] at hleaving
        exact hleaving
      | cancel =>
        rw [ha] at hleaving
        exact hleaving
      | running =>
        rw [ha] at hleaving
        simp only [wake, afterRunning, Bool.not_true, Bool.false_eq_true, if_false] at hleaving
        split_ifs at hleaving
        · exact hleaving.imp (fun h => h) fun h => by cases h
        · exact hleaving.imp (fun h => h) fun h => by cases h
      | terminal => exact absurd (.inl ha) hlast
      | reconcile => exact absurd (.inr ha) hlast
  | proceedFailed _ _ herr => exact .inr (.inl (herror herr))
  | proceedForced _ _ _ hforced => exact .inl (.inl hforced)
  | forced htask _ _ => exact .inl (.inr (by rw [htask]; rfl))
  | stuck htask _ _ => exact .inl (.inr (by rw [htask]; rfl))
  | quiesced htask _ => exact .inl (.inr (by rcases htask with h | h <;> rw [h] <;> rfl))
  | late _ _ => exact .inl hleaving
  | started _ => exact .inl hleaving
  | cancelAgain _ _ => exact .inl hleaving
  | cancelled _ _ _ => exact .inl hleaving
  | @concluded result _ _ _ _ _ =>
    exact .inl (hleaving.imp (fun h => by cases result <;> exact h) fun h => by cases h)
  | @observed result _ _ =>
    exact .inl (hleaving.imp (fun h => by cases result <;> exact h) fun h => by cases h)
  | _ => exact .inl (hleaving.imp (fun h => h) fun h => by cases h)

theorem Orderly.left_of
    (hleft : j.Leaving → j.Active disk → unhealthy ∨ j.reconciles ≠ 0) (herror : j.persistenceError = true → unhealthy)
    (h : Effect bounded now j m o) (hstates : j.misstates m = false) (hleaving : o.job.Leaving)
    (hactive : o.job.Active (o.stored.or disk)) : unhealthy ∨ o.damages = true ∨ o.job.reconciles ≠ 0 := by
  rcases hj.leaving_of herror h hleaving hactive with hwas | hu | hdamages
  · rcases hleft hwas (hj.active_of h hstates hactive) with hu | hreconciles
    · exact .inl hu
    · rcases reconciles_of_effect hj.filed.sane h with hsame | hlast
      · exact .inr (.inr (by rw [hsame]; exact hreconciles))
      · exact .inr (.inl (hj.damages_of h hlast hactive))
  · exact .inl hu
  · exact .inr (.inl hdamages)

theorem Orderly.held_of {holds : Prop}
    (hheld : j.Active disk → holds ∨ unhealthy ∨ j.reconciles ≠ 0)
    (hleft : j.Leaving → j.Active disk → unhealthy ∨ j.reconciles ≠ 0) (herror : j.persistenceError = true → unhealthy)
    (h : Effect bounded now j m o) (hstates : j.misstates m = false) (hactive : o.job.Active (o.stored.or disk)) :
    (holds ∧ o.releases = .no) ∨ unhealthy ∨ o.damages = true ∨ o.job.reconciles ≠ 0 := by
  by_cases hdone : o.job.task = .done
  · exact .inr (hj.left_of hleft herror h hstates (.inr (by rw [hdone]; rfl)) hactive)
  · rcases hheld (hj.active_of h hstates hactive) with hholds | hu | hreconciles
    · rcases (open_of_effect hj.filed.sane h hdone).2 with hno | hlast
      · exact .inl ⟨hholds, hno⟩
      · exact .inr (.inr (.inl (hj.damages_of h hlast hactive)))
    · exact .inr (.inl hu)
    · rcases reconciles_of_effect hj.filed.sane h with hsame | hlast
      · exact .inr (.inr (.inr (by rw [hsame]; exact hreconciles)))
      · exact .inr (.inr (.inl (hj.damages_of h hlast hactive)))

end

theorem error_of_effect (h : Effect bounded now j m o) (herror : o.job.persistenceError = true) :
    j.persistenceError = true ∨ o.damages = true := by
  cases h with
  | @write ok w rest hwrites =>
    cases ha : w.awaits with
    | started =>
      rw [ha] at herror
      exact (Bool.or_eq_true _ _).mp herror
    | admission =>
      rw [ha] at herror
      simp only [wake] at herror
      split at herror <;> exact .inl herror
    | running =>
      rw [ha] at herror
      simp only [wake, afterRunning] at herror
      split_ifs at herror <;> exact .inl herror
    | terminal =>
      rw [ha] at herror
      simp only [wake, afterTerminal] at herror
      left
      split at herror <;> (revert herror; cases (ok && !j.broken && w.record.fits) <;> exact fun h => h)
    | cancel =>
      rw [ha] at herror
      left
      revert herror
      cases (ok && !j.broken && w.record.fits) <;> exact fun h => h
    | reconcile =>
      rw [ha] at herror
      left
      revert herror
      cases (ok && !j.broken && w.record.fits) <;> exact fun h => h
  | @concluded result _ _ _ _ _ => exact .inl (by cases result <;> exact herror)
  | @observed result _ _ => exact .inl (by cases result <;> exact herror)
  | _ => exact .inl herror

end Job

end ADT.Runner
