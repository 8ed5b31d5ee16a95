import ADT.Lib.Interleave
import ADT.Lib.Json

/-!
# Admission.Idempotency — `POST /api/workflow-runs`

The creation of runs: `app/api/workflow-runs/route.ts` and `createRun` and `findRunByIdempotencyKey` of
`lib/workflow-d1-storage.ts`.  A request looks for the run of its key before it prepares its own, before it inserts it,
and again when the insertion fails.  The unique column keeps at most one run a key; which request a run was made for is
not compared.  Where every look-up that finds a run finds one of the same request, requests are answered with runs of
their own (`creation_identified`).
-/

namespace ADT.Admission

open Interleave

/-- The columns the creation looks at; `legacy` is `isLegacyRunReadOnly` of the decoded row. -/
structure RunRow where
  id : String
  workflowId : String
  initialInput : String
  clientIdempotencyKey : Option String
  legacy : Bool
  deriving DecidableEq

/-- `workflow_runs`, with its primary key and its unique column. -/
structure Runs where
  rows : List RunRow
  ids : (rows.map (·.id)).Nodup
  keys : (rows.filterMap (·.clientIdempotencyKey)).Nodup

/-- `INSERT`, where no column that is unique has the value already. -/
def Runs.insert (t : Runs) (row : RunRow) : Option Runs :=
  if h : row.id ∉ t.rows.map (·.id) ∧
      ∀ key ∈ row.clientIdempotencyKey, key ∉ t.rows.filterMap (·.clientIdempotencyKey) then
    some {
      rows := t.rows ++ [row]
      ids := by
        rw [List.map_append, List.nodup_append]
        refine ⟨t.ids, by simp, fun a ha b hb => ?_⟩
        obtain rfl : b = row.id := by simpa using hb
        rintro rfl
        exact h.1 ha
      keys := by
        rw [List.filterMap_append, List.nodup_append]
        refine ⟨t.keys, ?_, fun a ha b hb => ?_⟩
        · cases hkey : row.clientIdempotencyKey <;> simp [hkey]
        · rintro rfl
          exact h.2 a (by simpa using hb) ha }
  else none

def Runs.byKey (t : Runs) (key : String) : Option RunRow :=
  t.rows.find? (·.clientIdempotencyKey == some key)

def Runs.byId (t : Runs) (id : String) : Option RunRow := t.rows.find? (·.id == id)

/-! ### Requests -/

structure StartBody where
  workflowId : String
  initialInput : String
  idempotencyKey : String
  deriving DecidableEq

/-- `^[a-z0-9]+(?:-[a-z0-9]+)*$` -/
def isWorkflowId (s : String) : Bool :=
  (s.toList.splitOn '-').all fun part =>
    !part.isEmpty && part.all fun c => ('a' ≤ c && c ≤ 'z') || ('0' ≤ c && c ≤ '9')

/-- `^[A-Za-z0-9._:-]{8,128}$` -/
def isIdempotencyKey (s : String) : Bool :=
  8 ≤ s.length && s.length ≤ 128 &&
    s.toList.all fun c => c.isAlphanum || c == '.' || c == '_' || c == ':' || c == '-'

/-- `start.parse` -/
def parseStart (value : Json) : Option StartBody := do
  let workflowId ← (value.get? "workflowId").bind Json.asStr?
  let initialInput ← (value.get? "initialInput").bind Json.asStr?
  let idempotencyKey ← (value.get? "idempotencyKey").bind Json.asStr?
  if value.strictKeys ["workflowId", "initialInput", "idempotencyKey"] && isWorkflowId workflowId &&
      utf16Length initialInput ≤ 65536 && isIdempotencyKey idempotencyKey then
    some ⟨workflowId, initialInput, idempotencyKey⟩
  else none

/-- What `workflowError` makes of an error. -/
structure ApiError where
  status : ℕ
  code : String

/-- The answer to a request; `launch` is the launch state it shows. -/
inductive Response
  | run (status : ℕ) (runId : String) (launch : Option String)
  | failed (error : ApiError)

/-- The request is refused for a conflict. -/
def Response.conflict : Response → Bool
  | .failed error => error.status == 409
  | .run _ _ _ => false

/-- What the route asks for: the body of the request, the statements on `workflow_runs`, the definitions, agents and
connections of the run, a random id, the launch of a run, and the answer it sends. -/
inductive Request
  | receive
  | selectByKey (key : String)
  | select (id : String)
  | prepare (body : StartBody)
  | randomUUID
  | insert (row : RunRow)
  | reconcileLaunch (id : String)
  | respond (response : Response)

@[reducible] def Answer : Request → Type
  | .receive => Except ApiError Json
  | .selectByKey _ => Except ApiError (Option String)
  | .select _ => Except ApiError (Option RunRow)
  | .prepare _ => Except ApiError Bool
  | .randomUUID => String
  | .insert _ => Except ApiError Unit
  | .reconcileLaunch _ => Except ApiError (Option String)
  | .respond _ => Unit

@[reducible] def signature : Signature := ⟨Request, Answer⟩

abbrev Service := Prog signature ApiError

/-- How an insertion that breaks no constraint goes: a failure may be reported after it took effect. -/
inductive Insertion
  | stored | lost | refused

/-- What the outside answers.  A read or its decoding may fail. -/
structure Env where
  body : Except ApiError Json
  failure : Option ApiError
  prepared : Except ApiError Bool
  uuid : String
  insertion : Insertion
  launch : Except ApiError (Option String)

def operationFailed : ApiError := ⟨500, "operation_failed"⟩

def answer (env : Env) : (q : Request) → Runs → Answer q × Runs
  | .receive, t => (env.body, t)
  | .selectByKey key, t => (env.failure.elim (.ok ((t.byKey key).map (·.id))) .error, t)
  | .select id, t => (env.failure.elim (.ok (t.byId id)) .error, t)
  | .prepare _, t => (env.prepared, t)
  | .randomUUID, t => (env.uuid, t)
  | .insert row, t =>
    match t.insert row, env.insertion with
    | some t', .stored => (.ok (), t')
    | some t', .lost => (.error operationFailed, t')
    | _, _ => (.error operationFailed, t)
  | .reconcileLaunch _, t => (env.launch, t)
  | .respond _, t => ((), t)

@[reducible] def machine : Machine signature := ⟨Runs, Env, answer⟩

abbrev Services := Pool machine ApiError

@[simp] def request (q : Request) : Service (Answer q) := .ask q .done

/-! ### The route -/

/-- An answer that may be an error. -/
def orThrow {α : Type} : Except ApiError α → Service α
  | .ok a => pure a
  | .error e => throw e

def getRun (id : String) : Service (Option RunRow) := do
  orThrow (← request (.select id))

/-- `(await this.getRun(id))!`, of which the id is read next. -/
def getStored (id : String) : Service RunRow := do
  match ← getRun id with
  | some row => return row
  | none => throw operationFailed

def findRunByIdempotencyKey (key : String) : Service (Option RunRow) := do
  match ← orThrow (← request (.selectByKey key)) with
  | some id => getRun id
  | none => return none

/-- `createRun` of a run with a key. -/
def createRun (row : RunRow) (key : String) : Service RunRow := do
  match ← orThrow (← request (.selectByKey key)) with
  | some id => getStored id
  | none =>
    match ← request (.insert row) with
    | .ok () => getStored row.id
    | .error e =>
      match ← orThrow (← request (.selectByKey key)) with
      | some id => getStored id
      | none => throw e

def reconcileWorkflowLaunch (row : RunRow) : Service (Option String) := do
  orThrow (← request (.reconcileLaunch row.id))

def newLangGraphWorkflowRun (id : String) (body : StartBody) : Service RunRow :=
  if byteLength body.initialInput > 65536 then throw ⟨500, "operation_failed"⟩
  else return ⟨id, body.workflowId, body.initialInput, some body.idempotencyKey, false⟩

/-- `start.parse`, which throws. -/
def readStart (value : Json) : Service StartBody :=
  match parseStart value with
  | some body => pure body
  | none => throw ⟨400, "validation_failed"⟩

def receive : Service StartBody := do
  readStart (← orThrow (← request .receive))

/-- The answer for a run that was there before. -/
def replay (existing : RunRow) : Service Response := do
  if existing.legacy then
    return .run 200 existing.id none
  else
    let launch ← reconcileWorkflowLaunch existing
    return .run (if launch == some "in_progress" then 202 else 200) existing.id launch

/-- The answer for a run of its own. -/
def create (body : StartBody) : Service Response := do
  if ← orThrow (← request (.prepare body)) then
    let id ← request .randomUUID
    let row ← newLangGraphWorkflowRun id body
    let created ← createRun row body.idempotencyKey
    let launch ← reconcileWorkflowLaunch created
    return .run (if launch == some "in_progress" then 202 else 201) created.id launch
  else
    return .failed ⟨404, "not_found"⟩

def answerStart (body : StartBody) : Service Response := do
  match ← findRunByIdempotencyKey body.idempotencyKey with
  | some existing => replay existing
  | none => create body

def post : Service Unit := do
  let response ← tryCatch (receive >>= answerStart) fun e => pure (.failed e)
  request (.respond response)

/-! ### Everybody who creates runs -/

/-- A request comes in, or one under way issues its next statement. -/
inductive Move
  | post
  | run (thread : ℕ) (env : Env)

def Move.action : Move → Action machine ApiError
  | .post => .spawn Admission.post
  | .run t env => .run t env

abbrev after (t : Runs) (moves : List Move) : Services := (Pool.init t).run (moves.map Move.action)

/-- The body that thread `t` received. -/
def bodyOf (t : ℕ) : List (Event signature) → Option StartBody
  | [] => none
  | ⟨t', .receive, .ok value⟩ :: trace => if t' = t then parseStart value else bodyOf t trace
  | _ :: trace => bodyOf t trace

/-- The run has the workflow and the input the body asks for. -/
def RunRow.serves (row : RunRow) (body : StartBody) : Bool :=
  row.workflowId == body.workflowId && row.initialInput == body.initialInput

/-- Idempotency keys identify requests. -/
structure Identified (pool : Services) : Prop where
  /-- A key has at most one run. -/
  unique : ∀ a ∈ pool.world.rows, ∀ b ∈ pool.world.rows, a.clientIdempotencyKey = b.clientIdempotencyKey →
    a.clientIdempotencyKey.isSome → a = b
  /-- A request that is answered with a run is answered with one of its key, its workflow and its input. -/
  answered : ∀ later t status id launch earlier,
    pool.trace = later ++ ⟨t, .respond (.run status id launch), ()⟩ :: earlier → ∃ body row,
      bodyOf t earlier = some body ∧ row ∈ pool.world.rows ∧ row.id = id ∧
        row.clientIdempotencyKey = some body.idempotencyKey ∧ row.serves body = true
  /-- A request that found a run of another workflow or input is refused for a conflict. -/
  refused : ∀ later mid before t response body key row,
    pool.trace = later ++ ⟨t, .respond response, ()⟩ :: (mid ++ ⟨t, .selectByKey key, .ok (some row.id)⟩ :: before) →
      bodyOf t before = some body → row ∈ pool.world.rows → row.serves body = false → response.conflict = true

/-- A look-up that finds a run finds one that serves the request. -/
def matchingMove (pool : Services) : Action machine ApiError → Bool
  | .spawn _ => true
  | .run t env =>
    match pool.threads[t]? with
    | some (.ask (.selectByKey key) _) =>
      env.failure.isSome || (pool.world.byKey key).all fun row => (bodyOf t pool.trace).all row.serves
    | _ => true

def Matching (pool : Services) (a : Action machine ApiError) : Prop := matchingMove pool a = true

instance (pool : Services) (a : Action machine ApiError) : Decidable (Matching pool a) :=
  inferInstanceAs (Decidable (_ = true))

/-! ### What a request knows -/

/-- The body a thread received, and the runs it may be answered with. -/
structure Known where
  body : Option StartBody
  runs : List String

/-- The run is one of the key, the workflow and the input. -/
def RunRow.isFor (row : RunRow) (body : StartBody) : Prop :=
  row.clientIdempotencyKey = some body.idempotencyKey ∧ row.serves body = true

def knowledge : Discipline signature Known where
  needs g
    | .selectByKey key => ∃ body, g.body = some body ∧ body.idempotencyKey = key
    | .insert row => ∃ body, g.body = some body ∧ row.isFor body
    | .respond (.run _ id _) => id ∈ g.runs
    | _ => True
  expects _
    | .select id, .ok (some row) => row.id = id
    | _, _ => True
  next g
    | .receive, .ok value => ⟨parseStart value, []⟩
    | .selectByKey _, .ok (some id) => { g with runs := id :: g.runs }
    | .insert row, .ok () => { g with runs := row.id :: g.runs }
    | _, _ => g

/-- A row that was read is one the thread may be answered with. -/
def RowKnown : Except ApiError RunRow → Known → Prop
  | .ok row, g => row.id ∈ g.runs
  | .error _, _ => True

def FoundKnown : Except ApiError (Option RunRow) → Known → Prop
  | .ok (some row), g => row.id ∈ g.runs
  | _, _ => True

def ResponseKnown : Except ApiError Response → Known → Prop
  | .ok (.run _ id _), g => id ∈ g.runs
  | _, _ => True

variable {g : Known}
variable {id : String} {row : RunRow} {body : StartBody} (t : Runs)

theorem keeps_getRun (h : id ∈ g.runs) : knowledge.Keeps (getRun id) g FoundKnown := by
  refine ⟨trivial, fun a ha => ?_⟩
  rcases a with e | row | row
  · trivial
  · trivial
  · have hid : row.id = id := ha
    exact hid ▸ h

theorem keeps_getStored (h : id ∈ g.runs) : knowledge.Keeps (getStored id) g RowKnown := by
  refine Discipline.keeps_bind ((keeps_getRun h).mono fun r g' hr => ?_)
  rcases r with e | row | row
  · trivial
  · trivial
  · exact hr

theorem keeps_createRun (hbody : g.body = some body) (hrow : row.isFor body) :
    knowledge.Keeps (createRun row body.idempotencyKey) g RowKnown := by
  refine ⟨⟨body, hbody, rfl⟩, fun found _ => ?_⟩
  rcases found with e | _ | id
  · trivial
  · refine ⟨⟨body, hbody, hrow⟩, fun inserted _ => ?_⟩
    rcases inserted with e | _
    · -- the insertion failed: the key is looked up again
      refine ⟨⟨body, hbody, rfl⟩, fun again _ => ?_⟩
      rcases again with e' | _ | id
      · trivial
      · trivial
      · exact keeps_getStored List.mem_cons_self
    · exact keeps_getStored List.mem_cons_self
  · exact keeps_getStored List.mem_cons_self

theorem keeps_launched (h : row.id ∈ g.runs) (status : Option String → ℕ) : knowledge.Keeps (do
      let launch ← reconcileWorkflowLaunch row return Response.run (status launch) row.id launch) g ResponseKnown := by
  refine ⟨trivial, fun launch _ => ?_⟩
  rcases launch with e | launch
  · trivial
  · exact h

theorem keeps_replay (h : row.id ∈ g.runs) : knowledge.Keeps (replay row) g ResponseKnown := by
  unfold replay
  split
  · exact h
  · exact keeps_launched h _

theorem keeps_create (hbody : g.body = some body) : knowledge.Keeps (create body) g ResponseKnown := by
  refine ⟨trivial, fun prepared _ => ?_⟩
  rcases prepared with e | _ | _
  · trivial
  · trivial
  · refine ⟨trivial, fun id _ => ?_⟩
    refine Discipline.keeps_bind ?_
    unfold newLangGraphWorkflowRun
    split
    · trivial
    · have hrow : RunRow.isFor ⟨id, body.workflowId, body.initialInput, some body.idempotencyKey, false⟩ body :=
        ⟨rfl, by simp [RunRow.serves]⟩
      show knowledge.Keeps (createRun _ body.idempotencyKey >>= _) g ResponseKnown
      refine Discipline.keeps_bind ((keeps_createRun hbody hrow).mono fun r g' hr => ?_)
      rcases r with e | row
      · trivial
      · exact keeps_launched hr _

theorem keeps_answerStart (hbody : g.body = some body) : knowledge.Keeps (answerStart body) g ResponseKnown := by
  refine ⟨⟨body, hbody, rfl⟩, fun found _ => ?_⟩
  rcases found with e | _ | id
  · trivial
  · exact keeps_create hbody
  · show knowledge.Keeps (getRun id >>= _) { g with runs := id :: g.runs } ResponseKnown
    refine ⟨trivial, fun found hid => ?_⟩
    rcases found with e | _ | row
    · trivial
    · exact keeps_create hbody
    · have hrow : row.id = id := hid
      exact keeps_replay (hrow ▸ List.mem_cons_self)

theorem keeps_received : knowledge.Keeps (receive >>= answerStart) g ResponseKnown := by
  refine ⟨trivial, fun received _ => ?_⟩
  rcases received with e | value
  · trivial
  show knowledge.Keeps (readStart value >>= answerStart) ⟨parseStart value, []⟩ ResponseKnown
  unfold readStart
  rcases hparse : parseStart value with _ | body
  · trivial
  · exact keeps_answerStart rfl

theorem keeps_post : knowledge.Keeps post ⟨none, []⟩ fun _ _ => True := by
  refine Discipline.keeps_bind (Discipline.keeps_tryCatch (keeps_received.mono fun r g' hr => ?_))
  rcases r with e | response
  · exact ⟨trivial, fun _ _ => trivial⟩
  · rcases response with ⟨status, id, launch⟩ | e
    · exact ⟨hr, fun _ _ => trivial⟩
    · exact ⟨trivial, fun _ _ => trivial⟩

/-! ### Runs -/

abbrev knows (t : ℕ) (trace : List (Event signature)) : Known := Pool.ghost knowledge ⟨none, []⟩ t trace

/-- What a thread may be answered with serves its body, and so does what it found. -/
structure Served (pool : Services) : Prop where
  kept : Pool.Kept knowledge ⟨none, []⟩ pool
  known : ∀ t, ∀ id ∈ (knows t pool.trace).runs, ∃ body row,
    bodyOf t pool.trace = some body ∧ row ∈ pool.world.rows ∧ row.id = id ∧ row.isFor body
  answered : ∀ later t status id launch earlier,
    pool.trace = later ++ ⟨t, .respond (.run status id launch), ()⟩ :: earlier → ∃ body row,
      bodyOf t earlier = some body ∧ row ∈ pool.world.rows ∧ row.id = id ∧ row.isFor body
  found : ∀ later before t key id, pool.trace = later ++ ⟨t, .selectByKey key, .ok (some id)⟩ :: before →
    ∃ row ∈ pool.world.rows, row.id = id ∧ ∀ body ∈ bodyOf t before, row.serves body = true

theorem served_init : Served (Pool.init t) where
  kept := Pool.kept_init (M := machine) t
  known := by simp [Pool.init, knows, Pool.ghost]
  answered := by simp [Pool.init]
  found := by simp [Pool.init]

theorem Runs.insert_rows {t t' : Runs} (h : t.insert row = some t') : t'.rows = t.rows ++ [row] := by
  unfold Runs.insert at h
  split at h
  · rw [← Option.some.inj h]
  · cases h

theorem answer_rows (env : Env) (q : Request) (t : Runs) : ∃ new, (answer env q t).2.rows = t.rows ++ new := by
  cases q
  case insert row =>
    rcases hinsert : t.insert row with _ | t'
    · exact ⟨[], by simp [answer, hinsert]⟩
    · rcases hhow : env.insertion with _ | _ | _
      · exact ⟨[row], by simp [answer, hinsert, hhow, Runs.insert_rows hinsert]⟩
      · exact ⟨[row], by simp [answer, hinsert, hhow, Runs.insert_rows hinsert]⟩
      · exact ⟨[], by simp [answer, hinsert, hhow]⟩
  all_goals exact ⟨[], by simp [answer]⟩

theorem Runs.eq_of_id {a b : RunRow} (ha : a ∈ t.rows) (hb : b ∈ t.rows) (h : a.id = b.id) : a = b :=
  List.inj_on_of_nodup_map t.ids ha hb h

theorem knows_body (t : ℕ) (trace : List (Event signature)) : (knows t trace).body = bodyOf t trace := by
  induction trace with
  | nil => rfl
  | cons e trace ih =>
    obtain ⟨t', q, a⟩ := e
    by_cases hthread : t' = t
    · subst hthread
      rw [knows, Pool.ghost, if_pos rfl]
      cases q with
      | receive =>
        rcases a with e | value
        · exact ih
        · simp [knowledge, bodyOf]
      | selectByKey key => rcases a with e | _ | id <;> exact ih
      | insert row => rcases a with e | _ <;> exact ih
      | _ => exact ih
    · rw [knows, Pool.ghost, if_neg hthread]
      cases q with
      | receive =>
        rcases a with e | value
        · exact ih
        · simpa [bodyOf, hthread] using ih
      | _ => exact ih

variable {pool : Services} {thread : ℕ} {env : Env} {q : Request}

/-- A client knows a run only of a row that serves the body it was sent. -/
theorem known_answer (h : Served pool) (hneeds : knowledge.needs (knows thread pool.trace) q)
    (hmatch : ∀ key, q = .selectByKey key → env.failure = none → ∀ row ∈ pool.world.byKey key,
      ∀ body ∈ bodyOf thread pool.trace, row.serves body = true) :
    ∀ id ∈ (knowledge.next (knows thread pool.trace) q (answer env q pool.world).1).runs, ∃ body row,
      bodyOf thread (⟨thread, q, (answer env q pool.world).1⟩ :: pool.trace) = some body ∧
        row ∈ (answer env q pool.world).2.rows ∧ row.id = id ∧ row.isFor body := by
  obtain ⟨new, hnew⟩ := answer_rows env q pool.world
  -- what was known before is still known
  have hold : ∀ id ∈ (knows thread pool.trace).runs, ∃ body row, bodyOf thread pool.trace = some body ∧
      row ∈ (answer env q pool.world).2.rows ∧ row.id = id ∧ row.isFor body := by
    intro id hid
    obtain ⟨body, row, hbody, hrow, hrest⟩ := h.known thread id hid
    exact ⟨body, row, hbody, by rw [hnew]; exact List.mem_append_left _ hrow, hrest⟩
  cases q with
  | receive =>
    simp only [answer] at hold ⊢
    rcases env.body with e | value
    · exact hold
    · intro id hid
      cases hid
  | selectByKey key =>
    obtain ⟨body, hbody, hkey⟩ := hneeds
    rw [knows_body] at hbody
    rcases hfailure : env.failure with _ | e
    · rcases hrow : pool.world.byKey key with _ | row
      · simpa [answer, hfailure, hrow, knowledge, bodyOf] using hold
      · have hfound : (answer env (.selectByKey key) pool.world).1 = .ok (some row.id) := by
          simp [answer, hfailure, hrow]
        rw [hfound]
        intro id hid
        rcases List.mem_cons.mp hid with rfl | hid
        · refine ⟨body, row, hbody, List.mem_of_find?_eq_some hrow, rfl, ?_, ?_⟩
          · have := List.find?_some hrow
            rw [hkey]
            simpa using this
          · exact hmatch key rfl hfailure row hrow body hbody
        · exact hold id hid
    · simpa [answer, hfailure, knowledge, bodyOf] using hold
  | insert row =>
    obtain ⟨body, hbody, hrow⟩ := hneeds
    rw [knows_body] at hbody
    rcases hanswer : (answer env (.insert row) pool.world).1 with e | _
    · exact hold
    · intro id hid
      rcases List.mem_cons.mp hid with rfl | hid
      · refine ⟨body, row, hbody, ?_, rfl, hrow⟩
        simp only [answer] at hanswer ⊢
        split at hanswer
        · rename_i t' _ hinsert _
          simp [Runs.insert_rows hinsert]
        · cases hanswer
        · cases hanswer
      · exact hold id hid
  | _ => exact hold

theorem answer_expected (env : Env) (q : Request) (w : Runs) (g : Known) :
    knowledge.expects g q (answer env q w).1 := by
  cases q with
  | select id =>
    simp only [answer]
    rcases env.failure with _ | e
    · rcases hrow : w.byId id with _ | row
      · trivial
      · have := List.find?_some hrow
        simpa [knowledge] using this
    · trivial
  | _ => trivial

theorem found_answer (h : Served pool)
    (hmatch : ∀ key, q = .selectByKey key → env.failure = none → ∀ row ∈ pool.world.byKey key,
      ∀ body ∈ bodyOf thread pool.trace, row.serves body = true)
    {later before : List (Event signature)} {t : ℕ} {key : String}
    (htrace : (⟨thread, q, (answer env q pool.world).1⟩ : Event signature) :: pool.trace =
      later ++ ⟨t, .selectByKey key, .ok (some id)⟩ :: before) :
    ∃ row ∈ (answer env q pool.world).2.rows, row.id = id ∧ ∀ body ∈ bodyOf t before, row.serves body = true := by
  obtain ⟨new, hnew⟩ := answer_rows env q pool.world
  rcases later with _ | ⟨e, later⟩
  · -- the look-up itself
    obtain ⟨hhead, hrest⟩ := List.cons.inj htrace
    obtain rfl : q = .selectByKey key := congrArg Event.request hhead
    obtain rfl : thread = t := congrArg Event.thread hhead
    have hanswer : (answer env (.selectByKey key) pool.world).1 = .ok (some id) := by
      simpa only [Event.mk.injEq, heq_eq_eq, true_and] using hhead
    simp only [answer] at hanswer
    rcases hfailure : env.failure with _ | e
    · rw [hfailure, Option.elim_none] at hanswer
      obtain ⟨row, hrow, hid⟩ := Option.map_eq_some_iff.mp (Except.ok.inj hanswer)
      exact ⟨row, List.mem_of_find?_eq_some hrow, hid, fun body hbody =>
        hmatch key rfl hfailure row hrow body (by rw [hrest]; exact hbody)⟩
    · rw [hfailure] at hanswer
      cases hanswer
  · obtain ⟨row, hrow, hid, hserves⟩ := h.found later before t key id (List.cons.inj htrace).2
    exact ⟨row, by rw [hnew]; exact List.mem_append_left _ hrow, hid, hserves⟩

theorem answered_answer (h : Served pool) (hneeds : knowledge.needs (knows thread pool.trace) q)
    {later earlier : List (Event signature)} {t status : ℕ} {launch : Option String}
    (htrace : (⟨thread, q, (answer env q pool.world).1⟩ : Event signature) :: pool.trace =
      later ++ ⟨t, .respond (.run status id launch), ()⟩ :: earlier) : ∃ body row,
        bodyOf t earlier = some body ∧ row ∈ (answer env q pool.world).2.rows ∧ row.id = id ∧ row.isFor body := by
  obtain ⟨new, hnew⟩ := answer_rows env q pool.world
  have hgrown : ∀ row ∈ pool.world.rows, row ∈ (answer env q pool.world).2.rows := by
    intro row hrow
    rw [hnew]
    exact List.mem_append_left _ hrow
  rcases later with _ | ⟨e, later⟩
  · obtain ⟨hhead, hrest⟩ := List.cons.inj htrace
    obtain rfl : q = .respond (.run status id launch) := congrArg Event.request hhead
    obtain rfl : thread = t := congrArg Event.thread hhead
    obtain ⟨body, row, hbody, hrow, hfor⟩ := h.known thread id hneeds
    exact ⟨body, row, hrest ▸ hbody, hgrown row hrow, hfor⟩
  · obtain ⟨body, row, hbody, hrow, hfor⟩ := h.answered later t status id launch earlier (List.cons.inj htrace).2
    exact ⟨body, row, hbody, hgrown row hrow, hfor⟩

/-- **One move.** -/
theorem served_step (h : Served pool) (m : Move) (hm : Matching pool m.action) : Served (pool.step m.action) := by
  rcases Pool.step_cases pool m.action with ⟨p, hp, hs⟩ | ⟨t, env, q, next, ha, ht, hs⟩ | ⟨_, hs⟩
  · have hpost : p = post := by
      cases m with
      | post => exact (Action.spawn.inj hp).symm
      | run t env => cases hp
    rw [hs, hpost]
    exact ⟨Pool.kept_spawn h.kept keeps_post, h.known, h.answered, h.found⟩
  · have hneeds := (h.kept.threads t _ ht).1
    have hmatch : ∀ key, q = .selectByKey key → env.failure = none → ∀ row ∈ pool.world.byKey key,
        ∀ body ∈ bodyOf t pool.trace, row.serves body = true := by
      rintro key rfl hfailure row hrow body hbody
      rw [ha] at hm
      simp only [Matching, matchingMove, ht, hfailure, Option.isSome_none, Bool.false_or] at hm
      rw [Option.mem_def.mp hrow, Option.mem_def.mp hbody] at hm
      simpa using hm
    rw [hs]
    refine ⟨Pool.kept_answer h.kept ht _ _ (answer_expected env q pool.world _), fun t' id hid => ?_,
      fun _ _ _ _ _ _ htrace => answered_answer h hneeds htrace,
      fun _ _ _ _ _ htrace => found_answer h hmatch htrace⟩
    by_cases hthread : t = t'
    · subst hthread
      rw [knows, Pool.ghost, if_pos rfl] at hid
      exact known_answer h hneeds hmatch id hid
    · obtain ⟨new, hnew⟩ := answer_rows env q pool.world
      have hsame : knows t' (⟨t, q, (answer env q pool.world).1⟩ :: pool.trace) = knows t' pool.trace := by
        rw [knows, Pool.ghost, if_neg hthread]
      rw [hsame] at hid
      obtain ⟨body, row, hbody, hrow, hfor⟩ := h.known t' id hid
      refine ⟨body, row, ?_, by rw [hnew]; exact List.mem_append_left _ hrow, hfor⟩
      rw [← knows_body, hsame, knows_body, hbody]
  · rw [hs]
    exact h

theorem served_run {moves : List Move} (h : Served pool) (hm : Pool.Along Matching pool (moves.map Move.action)) :
    Served (pool.run (moves.map Move.action)) := by
  induction moves generalizing pool with
  | nil => exact h
  | cons m moves ih => exact ih (served_step h m hm.1) hm.2

theorem Runs.eq_of_key {a b : RunRow} (ha : a ∈ t.rows) (hb : b ∈ t.rows)
    (h : a.clientIdempotencyKey = b.clientIdempotencyKey) (hsome : a.clientIdempotencyKey.isSome) : a = b := by
  obtain ⟨key, hkey⟩ := Option.isSome_iff_exists.mp hsome
  have hpair := List.pairwise_filterMap.mp t.keys
  have hsymm : Std.Symm fun a b : RunRow => ∀ k, a.clientIdempotencyKey = some k → ∀ k',
      b.clientIdempotencyKey = some k' → k ≠ k' := ⟨fun _ _ h k hk k' hk' => (h k' hk' k hk).symm⟩
  by_contra hne
  exact hpair.forall ha hb hne key hkey key (h ▸ hkey) rfl

/-- **Idempotency.** Where every look-up that finds a run finds one of the same workflow and input, keys identify
requests in every run. -/
theorem creation_identified (t : Runs) (moves : List Move)
    (h : Pool.Along Matching (Pool.init t) (moves.map Move.action)) : Identified (after t moves) := by
  have hserved := served_run (served_init t) h
  refine ⟨fun a ha b hb heq hsome => (after t moves).world.eq_of_key ha hb heq hsome,
    fun later t' status id launch earlier htrace => ?_, ?_⟩
  · obtain ⟨body, row, hbody, hrow, hid, hkey, hserves⟩ := hserved.answered later t' status id launch earlier htrace
    exact ⟨body, row, hbody, hrow, hid, hkey, hserves⟩
  · intro later mid before t' response body key row htrace hbody hrow hother
    obtain ⟨found, hfound, hid, hserves⟩ := hserved.found (later ++ ⟨t', .respond response, ()⟩ :: mid) before t' key row.id
      (by rw [htrace, List.append_assoc, List.cons_append])
    obtain rfl := (after t moves).world.eq_of_id hfound hrow hid
    rw [hserves body hbody] at hother
    cases hother

def noRuns : Runs := ⟨[], List.nodup_nil, List.nodup_nil⟩

def startBody (initialInput : String) : Json :=
  .obj [("workflowId", .str "flow"), ("initialInput", .str initialInput), ("idempotencyKey", .str "key-0001")]

/-- Everything outside is available. -/
def sampleEnv (initialInput uuid : String) : Env where
  body := .ok (startBody initialInput)
  failure := none
  prepared := .ok true
  uuid
  insertion := .stored
  launch := .ok (some "launched")

/-- Thread `t` issues its next `n` requests. -/
def runs (t n : ℕ) (env : Env) : List Move := List.replicate n (.run t env)

/-- The same request twice at once: both look, both prepare a run, and the second insertion fails. -/
def sentTwice : List Move :=
  let env := sampleEnv "go"
  .post :: .post :: (runs 0 5 (env "run-1") ++ runs 1 5 (env "run-2") ++ runs 0 4 (env "run-1") ++ runs 1 5 (env "run-2"))

theorem sentTwice_identified : Identified (after noRuns sentTwice) :=
  creation_identified noRuns sentTwice (by decide +kernel)

/-- The key is used again with another input. -/
def usedAgain : List Move :=
  .post :: .post :: (runs 0 9 (sampleEnv "go" "run-1") ++ runs 1 6 (sampleEnv "stop" "run-2"))

theorem usedAgain_answered : ¬∀ moves, Identified (after noRuns moves) := by
  intro h
  have hconflict := (h usedAgain).refused [] [⟨1, .reconcileLaunch "run-1", .ok (some "launched")⟩,
      ⟨1, .select "run-1", .ok (some ⟨"run-1", "flow", "go", some "key-0001", false⟩)⟩]
    ((after noRuns usedAgain).trace.drop 4) 1 (.run 200 "run-1" (some "launched")) ⟨"flow", "stop", "key-0001"⟩ "key-0001"
    ⟨"run-1", "flow", "go", some "key-0001", false⟩ rfl (by decide +kernel) (by decide +kernel) (by decide)
  cases hconflict

end ADT.Admission
