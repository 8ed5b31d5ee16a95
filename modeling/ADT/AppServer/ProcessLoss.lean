import ADT.AppServer.Client
import ADT.Lib.Guarded

/-!
# AppServer.ProcessLoss — a turn whose process is gone

`failProcess` rejects the requests that are pending, and leaves the lifecycle of a workflow turn alone.  So the completion
of a turn is resolved where its process is gone as long as no process is lost under a turn that runs.
-/

namespace ADT.AppServer

open Guarded

namespace Client

/-- A turn waits for its completion, and the process that serves it is there. -/
def waiting (c : Client) : Bool :=
  c.workflow.any fun l => l.completion.isNone && l.served.isSome && c.process == l.served

/-- A turn waits for its completion, and the process that served it is gone: it is not the one that the client reads from
and writes to. -/
def Stranded (c : Client) : Prop :=
  ∃ l n, c.workflow = some l ∧ l.completion = none ∧ l.served = some n ∧ c.process ≠ some n

/-- The answer to `initialize` is a result. -/
def acknowledged : Readiness → Bool
  | .requesting _ (some (.result _)) => true
  | _ => false

/-- The move drops the process: it calls `failProcess`. -/
def drops (c : Client) : Move → Bool
  | .writeFailed _ => true
  | .childFailed _ _ => true
  | .close => true
  | .announceFailed _ => true
  | .initialized process => !acknowledged (c.readiness process)
  | _ => false

/-- No process is dropped under a turn that waits for its completion. -/
def Careful (c : Client) (m : Move) : Prop := c.drops m = true → c.waiting = false

theorem waiting_iff {c : Client} : c.waiting = true ↔
    ∃ l n, c.workflow = some l ∧ l.completion = none ∧ l.served = some n ∧ c.process = some n := by
  unfold waiting
  constructor
  · intro h
    rcases hworkflow : c.workflow with _ | l
    · rw [hworkflow] at h
      cases h
    · rw [hworkflow, Option.any_some, Bool.and_eq_true, Bool.and_eq_true] at h
      obtain ⟨⟨hcompletion, hserved⟩, hprocess⟩ := h
      obtain ⟨n, hn⟩ := Option.isSome_iff_exists.mp hserved
      exact ⟨l, n, rfl, Option.isNone_iff_eq_none.mp hcompletion, hn, (eq_of_beq hprocess).trans hn⟩
  · rintro ⟨l, n, hworkflow, hcompletion, hserved, hprocess⟩
    rw [hworkflow, Option.any_some, hcompletion, hserved, hprocess]
    exact beq_self_eq_true _

/-! ### What a move does to the turn -/

/-- What a message leaves of a lifecycle. -/
def Continues (l l' : Lifecycle) : Prop := l'.served = l.served ∧ (l'.completion = none → l.completion = none)

variable (l : Lifecycle)

theorem Continues.refl : Continues l l := ⟨rfl, fun h => h⟩

theorem complete_continues (completion : Completion) : Continues l (l.complete completion) := by
  refine ⟨rfl, fun h => ?_⟩
  rcases hcompletion : l.completion with _ | k
  · rfl
  · have hnone : l.completion.or (some completion) = none := h
    rw [hcompletion] at hnone
    cases hnone

theorem finish_continues (method : String) (params : Json) : Continues l (l.finish method params) := by
  unfold Lifecycle.finish
  split
  · exact complete_continues l _
  · exact .refl l

theorem receive_continues (message : Json) : Continues l (l.receive message) := by
  unfold Lifecycle.receive
  dsimp only
  split
  · split
    · split
      · exact complete_continues { l with log := l.log ++ [message] } _
      · exact finish_continues _ _ _
    · exact .refl l
  · exact .refl l

/-- What a move that does not drop the process does to the turn. -/
inductive Effect (c c' : Client) : Prop
  | ended (workflow : c'.workflow = none)
  | began (l : Lifecycle) (workflow : c'.workflow = some l) (served : l.served = c.process) (process : c'.process = c.process)
  | kept (process : c'.process = c.process ∨ c.process = none)
      (workflow : ∀ l', c'.workflow = some l' → ∃ l, c.workflow = some l ∧ Continues l l')

section

variable {c c' : Client}

theorem Effect.same (process : c'.process = c.process) (workflow : c'.workflow = c.workflow) : Effect c c' :=
  .kept (.inl process) fun l' hl => ⟨l', workflow ▸ hl, .refl l'⟩

theorem ready_effect {spawns : Bool} {process : ℕ} (h : c.ready spawns = some (c', process)) : Effect c c' := by
  rcases ready_cases h with ⟨rfl, -⟩ | ⟨rfl, hnone⟩
  · exact .same rfl rfl
  · exact .kept (.inr hnone) fun l' hl => ⟨l', hl, .refl l'⟩

theorem runTurn_effect (threadId turnId : String) (request : ℕ) : Effect c (c.runTurn threadId turnId request) := by
  refine .kept (.inl rfl) fun l' hl => ?_
  obtain ⟨l, hworkflow, rfl⟩ := Option.map_eq_some_iff.mp hl
  exact ⟨l, hworkflow, rfl, fun h => h⟩

variable {answer : Option Answer}

theorem race_effect {threadId : String} {request : ℕ} {first : First}
    (h : c.race threadId request answer first = some c') : Effect c c' := by
  cases first with
  | acknowledgement =>
    rcases answer with _ | answer
    · cases h
    · cases answer with
      | result value =>
        unfold race at h
        dsimp only at h
        rcases hturn : turnOf value with _ | turnId
        · rw [hturn] at h
          cases h
          exact .same rfl rfl
        · rw [hturn] at h
          cases h
          exact runTurn_effect _ _ _
      | rejected =>
        cases h
        exact .ended rfl
      | unavailable =>
        cases h
        exact .same rfl rfl
      | timeout =>
        cases h
        exact .same rfl rfl
  | deadline =>
    cases h
    exact .same rfl rfl
  | observed =>
    obtain ⟨turnId, -, rfl⟩ := Option.map_eq_some_iff.mp h
    exact runTurn_effect _ _ _

theorem reconcile_effect {threadId : String} {request : ℕ} {timedOut : Bool} {first : First}
    (h : c.reconcile threadId request answer timedOut first = some c') : Effect c c' := by
  cases first with
  | acknowledgement =>
    unfold reconcile at h
    dsimp only at h
    split at h
    · split at h
      · cases h
        exact runTurn_effect _ _ _
      · cases h
        exact .ended rfl
    · cases h
      exact .ended rfl
    · cases h
  | deadline =>
    cases h
    exact .ended rfl
  | observed =>
    obtain ⟨turnId, -, rfl⟩ := Option.map_eq_some_iff.mp h
    exact runTurn_effect _ _ _

theorem enterThread_effect (resume : Option String) (answer : Answer) : Effect c (c.enterThread resume answer) := by
  unfold enterThread
  split
  · split
    · split
      · exact .ended rfl
      · exact .began _ rfl rfl rfl
    · exact .ended rfl
  · exact .ended rfl

theorem conclude_effect (threadId turnId : String) (l : Lifecycle) (completion : Completion) :
    Effect c (c.conclude threadId turnId l completion) := by
  cases completion with
  | interaction => exact .same rfl rfl
  | failed => exact .ended rfl
  | completed =>
    unfold conclude
    dsimp only
    split
    · exact .ended rfl
    · split
      · exact .ended rfl
      · exact .ended rfl

/-- **Every move** drops the process or has one of the effects. -/
theorem step_effect {m : Move} (h : c.step m = some c') :
    (c.drops m = true ∧ c'.workflow = c.workflow ∧ c'.process = none) ∨ (c.drops m = false ∧ Effect c c') := by
  cases step_outcome h with
  | called resumeThreadId spawns hready =>
    refine .inr ⟨rfl, ?_⟩
    rcases ready_effect hready with hworkflow | ⟨l, hworkflow, hserved, hprocess⟩ | ⟨hprocess, hworkflow⟩
    · exact .ended hworkflow
    · exact .began l hworkflow hserved hprocess
    · exact .kept hprocess hworkflow
  | uncalled resumeThreadId spawns => exact .inr ⟨rfl, .ended rfl⟩
  | readied spawns hready => exact .inr ⟨rfl, ready_effect hready⟩
  | requested => exact .inr ⟨rfl, .same rfl rfl⟩
  | received message =>
    refine .inr ⟨rfl, .kept (.inl (receive_process message)) fun l' hl => ?_⟩
    rw [receive_workflow] at hl
    obtain ⟨l, hworkflow, rfl⟩ := Option.map_eq_some_iff.mp hl
    exact ⟨l, hworkflow, receive_continues l message⟩
  | writeFailed id => exact .inl ⟨rfl, failProcess_workflow, rfl⟩
  | timedOut id => exact .inr ⟨rfl, .same rfl rfl⟩
  | childFailed process trigger => exact .inl ⟨rfl, failProcess_workflow, rfl⟩
  | closed =>
    refine .inl ⟨rfl, ?_⟩
    rcases hprocess : c.process with _ | n
    · exact ⟨rfl, hprocess⟩
    · exact ⟨failProcess_workflow, rfl⟩
  | @initialized request answer process hready =>
    have hdrops : c.drops (.initialized process) = !acknowledged (.requesting request (some answer)) := by
      rw [← hready]
      rfl
    cases answer with
    | result value => exact .inr ⟨hdrops, .same rfl rfl⟩
    | rejected => exact .inl ⟨hdrops, failProcess_workflow, rfl⟩
    | unavailable => exact .inl ⟨hdrops, failProcess_workflow, rfl⟩
    | timeout => exact .inl ⟨hdrops, failProcess_workflow, rfl⟩
  | announced process => exact .inr ⟨rfl, .same rfl rfl⟩
  | announceFailed process => exact .inl ⟨rfl, failProcess_workflow, rfl⟩
  | prepared resume => exact .inr ⟨rfl, .same rfl rfl⟩
  | unprepared resume => exact .inr ⟨rfl, .ended rfl⟩
  | threadOpened resume answer => exact .inr ⟨rfl, enterThread_effect resume answer⟩
  | raced hcall hrace => exact .inr ⟨rfl, race_effect hrace⟩
  | reconciled hcall hreconcile => exact .inr ⟨rfl, reconcile_effect hreconcile⟩
  | concluded hcall hworkflow hcompletion => exact .inr ⟨rfl, conclude_effect _ _ _ _⟩
  | interrupted threadId turnId => exact .inr ⟨rfl, .ended rfl⟩

/-! ### Runs -/

/-- **One move** strands no call exactly when it is careful. -/
theorem stranded_step_iff (hc : ¬ c.Stranded) {m : Move} (h : c.step m = some c') : ¬ c'.Stranded ↔ c.Careful m := by
  rcases step_effect h with ⟨hdrops, hworkflow, hprocess⟩ | ⟨hdrops, heffect⟩
  · constructor
    · intro hnot _
      by_contra hwaiting
      rw [Bool.not_eq_false, waiting_iff] at hwaiting
      obtain ⟨l, n, hl, hcompletion, hserved, -⟩ := hwaiting
      exact hnot ⟨l, n, hworkflow.trans hl, hcompletion, hserved, by rw [hprocess]; exact fun h => by cases h⟩
    · rintro hcareful ⟨l, n, hl, hcompletion, hserved, -⟩
      rw [hworkflow] at hl
      have hwaiting : c.waiting = true := by
        refine waiting_iff.mpr ⟨l, n, hl, hcompletion, hserved, ?_⟩
        by_contra hgone
        exact hc ⟨l, n, hl, hcompletion, hserved, hgone⟩
      rw [hcareful hdrops] at hwaiting
      cases hwaiting
  · have hcareful : c.Careful m := fun htrue => by
      rw [hdrops] at htrue
      cases htrue
    refine iff_of_true ?_ hcareful
    rintro ⟨l', n, hl, hcompletion, hserved, hgone⟩
    rcases heffect with hnone | ⟨l, hbegan, hown, hsame⟩ | ⟨hprocess, hkept⟩
    · rw [hnone] at hl
      cases hl
    · obtain rfl := Option.some.inj (hbegan.symm.trans hl)
      exact hgone (hsame.trans (hown.symm.trans hserved))
    · obtain ⟨l, hworkflow, hsame, hwaits⟩ := hkept l' hl
      have hpresent : c.process = some n := by
        by_contra hlost
        exact hc ⟨l, n, hworkflow, hwaits hcompletion, hsame.symm.trans hserved, hlost⟩
      rcases hprocess with hprocess | hnone
      · exact hgone (hprocess.trans hpresent)
      · rw [hnone] at hpresent
        cases hpresent

end

/-- In every run in which no process is dropped under a turn that waits for its completion, the completion of a turn is
resolved where its process is gone; and a move out of such a run that drops the process so leaves the turn without it. -/
theorem process_loss_resolves {c : Client} (h : Reaches Client.step Careful initial c) :
    ¬ c.Stranded ∧ ∀ m c', c.step m = some c' → (¬ c'.Stranded ↔ c.Careful m) := by
  have hnot : ¬ c.Stranded := by
    refine h.invariant (I := fun c => ¬ c.Stranded) ?_ fun hv hgood hmove => (stranded_step_iff hv hmove).mpr hgood
    rintro ⟨l, n, hl, -⟩
    cases hl
  exact ⟨hnot, fun m c' hmove => stranded_step_iff hnot hmove⟩

end Client

namespace Sample

def response (id : ℤ) (result : Json) : Move := .line (.obj [("id", .num id), ("result", result)])

def named (key id : String) : Json := .obj [(key, .obj [("id", .str id)])]

/-- A thread is opened, and a turn of it is acknowledged. -/
def running : List Move :=
  [.call none true, response 1 .null, .initialized 1, .announced 1, .prepared, response 2 (named "thread" "thread-1"),
    .threadOpened, response 3 (named "turn" "turn-1"), .raced .acknowledgement]

end Sample

open Sample Client in
/-- While a turn runs, nobody is stranded; a process that exits then strands it. -/
theorem process_loss_resolves_running : ∃ c : Client, ¬ c.Stranded ∧ ¬ c.Careful (.childFailed 1 .exit) := by
  obtain ⟨c, hreach, hrunning⟩ : ∃ c, Reaches Client.step (fun c m => (!(c.drops m && c.waiting)) = true) initial c ∧
      c.waiting = true := reaches_of_any _ running _ (by decide +kernel)
  have hcareful : Reaches Client.step Careful initial c := hreach.mono fun c m h hdrops => by
    rw [hdrops, Bool.true_and, Bool.not_eq_true'] at h
    exact h
  refine ⟨c, (process_loss_resolves hcareful).1, fun h => ?_⟩
  have hwaiting := h rfl
  rw [hrunning] at hwaiting
  cases hwaiting

open Sample Client in
/-- The App Server exits after it acknowledged the turn: nothing is pending, and nothing resolves the completion. -/
theorem acknowledged_turn_stranded :
    ¬ ∀ c : Client, Reaches Client.step (fun _ _ => True) initial c → ¬ c.Stranded := by
  intro hall
  obtain ⟨c, hreach, hstranded⟩ : ∃ c, Reaches Client.step (fun _ _ => true = true) initial c ∧
      (c.workflow.any (fun l => l.completion.isNone && l.served == some 1) && c.process.isNone) = true :=
    reaches_of_any (fun _ _ => true) (running ++ [.childFailed 1 .exit]) _ (by decide +kernel)
  rw [Bool.and_eq_true] at hstranded
  obtain ⟨hturn, hprocess⟩ := hstranded
  rcases hworkflow : c.workflow with _ | l
  · rw [hworkflow] at hturn
    cases hturn
  · rw [hworkflow, Option.any_some, Bool.and_eq_true] at hturn
    refine hall c (hreach.mono fun _ _ _ => trivial) ⟨l, 1, hworkflow, ?_, eq_of_beq hturn.2, ?_⟩
    · exact Option.isNone_iff_eq_none.mp hturn.1
    · rw [Option.isNone_iff_eq_none.mp hprocess]
      exact fun h => by cases h

end ADT.AppServer
