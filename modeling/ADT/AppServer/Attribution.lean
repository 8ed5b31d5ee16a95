import ADT.AppServer.ProcessLoss

/-!
# AppServer.Attribution — the turn that a result is given for

The id of a turn is learned from whichever comes first, the acknowledgement of `turn/start` or a notification for its
thread, and what names no turn is taken for the turn that runs.  So a result belongs to its turn as long as the
notifications that the client takes while the turn is registered are those of that turn.
-/

namespace ADT.AppServer

open Guarded

/-! ### What messages say -/

/-- The turn that a response to a request gives. -/
def turnResponse (request : ℕ) (message : Json) : Option String :=
  if (string? message "method").isSome then none
  else
    match message.get? "id", message.get? "error" with
    | some (.num n), none => if n = request then identifier (message.get? "result") "turn" else none
    | _, _ => none

/-- The method and the parameters of a notification. -/
def notification (message : Json) : Option (String × Json) :=
  match message.get? "method", message.get? "params", message.get? "id" with
  | some (.str method), some params, none => some (method, params)
  | _, _, _ => none

/-- The text of an agent message of a turn that is completed. -/
def agentMessageOf (threadId turnId : String) (message : Json) : Option String :=
  (notification message).bind fun n =>
    if string? n.2 "threadId" = some threadId ∧ string? n.2 "turnId" = some turnId then agentMessage n.1 n.2 else none

def completesTurn (threadId turnId : String) (message : Json) : Bool :=
  (notification message).any fun n =>
    n.1 == "turn/completed" && string? n.2 "threadId" == some threadId && observedId n.2 == some turnId &&
      (n.2.get? "turn").bind (string? · "status") == some "completed"

/-- A result is that of a turn: the turn is the one that every response to the request gives, it was completed, and the
text is that of its last agent message. -/
def Attributed (l : Lifecycle) (text threadId turnId : String) : Prop :=
  (∀ message ∈ l.log, ∀ given, turnResponse l.request message = some given → turnId = given) ∧
    (l.log.filterMap (agentMessageOf threadId turnId)).getLast? = some text ∧
      ∃ message ∈ l.log, completesTurn threadId turnId message = true

/-- A message that belongs to the turn `own`: a response to its request gives `own`, and a notification that the client
takes names no other turn before the turn is known, and names `own` where it has an agent message or ends a turn. -/
structure Belongs (own : String) (l : Lifecycle) (message : Json) : Prop where
  response : ∀ given, turnResponse l.request message = some given → given = own
  named : ∀ method params, notification message = some (method, params) → Client.accepts l params = true →
    (l.turnId = none → ∀ turnId, observedId params = some turnId → turnId = own) ∧
      ((agentMessage method params).isSome = true → string? params "turnId" = some own) ∧
        (method = "turn/completed" → observedId params = some own)

/-- While a turn is registered, what is received belongs to it; `own` has the turn of every `turn/start`. -/
def Faithful (own : ℕ → String) (c : Client) (m : Move) : Prop :=
  ∀ message, m = .line message → ∀ l, c.workflow = some l → Belongs (own l.request) l message

/-! ### A lifecycle -/

/-- What a lifecycle knows is about the turn `own`. -/
structure Attributing (own : String) (l : Lifecycle) : Prop where
  turnId : ∀ turnId, l.turnId = some turnId → turnId = own
  responses : ∀ message ∈ l.log, ∀ given, turnResponse l.request message = some given → given = own
  text : ∀ text, l.agentText = some text → (l.log.filterMap (agentMessageOf l.threadId own)).getLast? = some text
  completion : l.completion = some .completed → ∃ message ∈ l.log, completesTurn l.threadId own message = true

section

variable {own : String} {l : Lifecycle} {message : Json}

theorem Attributing.passed (h : Attributing own l)
    (hresponse : ∀ given, turnResponse l.request message = some given → given = own)
    (hnone : agentMessageOf l.threadId own message = none) :
    Attributing own { l with log := l.log ++ [message] } where
  turnId := h.turnId
  responses := fun m hm given hgiven => by
    rcases List.mem_append.mp hm with hm | hm
    · exact h.responses m hm given hgiven
    · rw [List.mem_singleton.mp hm] at hgiven
      exact hresponse given hgiven
  text := fun text htext => by
    show ((l.log ++ [message]).filterMap _).getLast? = _
    rw [List.filterMap_append, List.filterMap_cons_none hnone, List.filterMap_nil, List.append_nil]
    exact h.text text htext
  completion := fun hcompletion => by
    obtain ⟨m, hm, hcompletes⟩ := h.completion hcompletion
    exact ⟨m, List.mem_append_left _ hm, hcompletes⟩

theorem turnResponse_notification {method : String} (hmethod : message.get? "method" = some (.str method)) (request : ℕ) :
    turnResponse request message = none := by
  rw [turnResponse, string?, hmethod]
  rfl

theorem notification_eq {method : String} {params : Json} (hmethod : message.get? "method" = some (.str method))
    (hparams : message.get? "params" = some params) (hid : ¬ (message.get? "id").isSome = true) :
    notification message = some (method, params) := by
  rw [notification, hmethod, hparams, Option.not_isSome_iff_eq_none.mp hid]

theorem notification_request (hid : (message.get? "id").isSome = true) : notification message = none := by
  obtain ⟨id, hsome⟩ := Option.isSome_iff_exists.mp hid
  unfold notification
  rw [hsome]
  split
  · rename_i hnone
    cases hnone
  · rfl

theorem accepts_of_turn (h : Attributing own l) {params : Json} (hthread : string? params "threadId" = some l.threadId)
    (hturn : string? params "turnId" = some own) : Client.accepts l params = true := by
  unfold Client.accepts
  rw [hthread, beq_self_eq_true, Bool.true_and, hturn]
  rcases hknown : l.turnId with _ | turnId
  · rfl
  · rw [h.turnId turnId hknown, beq_self_eq_true, Bool.or_true]

theorem agentMessageOf_eq {method : String} {params : Json} (hnotification : notification message = some (method, params)) :
    agentMessageOf l.threadId own message = if string? params "threadId" = some l.threadId ∧
      string? params "turnId" = some own then agentMessage method params else none := by
  rw [agentMessageOf, hnotification]
  rfl

theorem finish_eq (l : Lifecycle) (method : String) (params : Json) :
    l.finish method params = { l with completion := (l.finish method params).completion } := by
  unfold Lifecycle.finish
  split
  · rfl
  · rfl

theorem thread_of_accepts {params : Json} (h : Client.accepts l params = true) :
    string? params "threadId" = some l.threadId := by
  rw [Client.accepts, Bool.and_eq_true] at h
  exact eq_of_beq h.1

/-- What a notification changes in the turn that accepts it is attributed to that turn. -/
theorem Attributing.taken (h : Attributing own l) {method : String} {params : Json}
    (hmethod : message.get? "method" = some (.str method)) (hnotification : notification message = some (method, params))
    (haccepts : Client.accepts l params = true) (hm : Belongs own l message) :
    Attributing own ((({ l with log := l.log ++ [message] }.observe params).take method params).finish method params) := by
  obtain ⟨hnamed, hagent, hended⟩ := hm.named method params hnotification haccepts
  have hthread := thread_of_accepts haccepts
  have hlearned : ∀ turnId, l.turnId.or (observedId params) = some turnId → turnId = own := by
    intro turnId hturn
    rcases hold : l.turnId with _ | old
    · rw [hold, Option.none_or] at hturn
      exact hnamed hold turnId hturn
    · rw [hold, Option.some_or] at hturn
      exact h.turnId turnId (hold.trans hturn)
  have hmessage := @agentMessageOf_eq own l message method params hnotification
  rw [finish_eq]
  refine ⟨hlearned, fun m hlog given hgiven => ?_, fun text htext => ?_, fun hover => ?_⟩
  · rcases List.mem_append.mp hlog with hlog | hlog
    · exact h.responses m hlog given hgiven
    · rw [List.mem_singleton.mp hlog, turnResponse_notification hmethod] at hgiven
      cases hgiven
  · have hlast : (agentMessage method params).or l.agentText = some text := htext
    show ((l.log ++ [message]).filterMap (agentMessageOf l.threadId own)).getLast? = some text
    rcases hagentMessage : agentMessage method params with _ | given
    · rw [hagentMessage, ite_self] at hmessage
      rw [hagentMessage, Option.none_or] at hlast
      rw [List.filterMap_append, List.filterMap_cons_none hmessage, List.filterMap_nil, List.append_nil]
      exact h.text text hlast
    · rw [if_pos ⟨hthread, hagent (by rw [hagentMessage]; rfl)⟩, hagentMessage] at hmessage
      rw [hagentMessage, Option.some_or] at hlast
      cases hlast
      rw [List.filterMap_append, List.filterMap_cons_some hmessage, List.filterMap_nil, List.getLast?_append]
      rfl
  · -- the turn is ended by a notification that names it
    unfold Lifecycle.finish at hover
    by_cases hends : method = "turn/completed"
    · rw [if_pos hends] at hover
      have hcompletion : l.completion.or (some (if (params.get? "turn").bind (string? · "status") = some "completed" then
          Completion.completed else .failed)) = some .completed := hover
      rcases hbefore : l.completion with _ | before
      · rw [hbefore, Option.none_or] at hcompletion
        have hstatus : (params.get? "turn").bind (string? · "status") = some "completed" := by
          by_contra hnot
          rw [if_neg hnot] at hcompletion
          cases hcompletion
        refine ⟨message, List.mem_append_right _ (List.mem_singleton_self _), ?_⟩
        show completesTurn l.threadId own message = true
        rw [completesTurn, hnotification, Option.any_some, hthread, hended hends, hstatus, hends]
        simp
      · rw [hbefore, Option.some_or] at hcompletion
        obtain ⟨m, hlog, hcompletes⟩ := h.completion (hbefore.trans hcompletion)
        exact ⟨m, List.mem_append_left _ hlog, hcompletes⟩
    · rw [if_neg hends] at hover
      obtain ⟨m, hlog, hcompletes⟩ := h.completion hover
      exact ⟨m, List.mem_append_left _ hlog, hcompletes⟩

theorem Attributing.interrupted (h : Attributing own l) : Attributing own (l.complete .interaction) where
  turnId := h.turnId
  responses := h.responses
  text := h.text
  completion := fun hover => by
    have hcompletion : l.completion.or (some .interaction) = some .completed := hover
    rcases hbefore : l.completion with _ | before
    · rw [hbefore] at hcompletion
      cases hcompletion
    · rw [hbefore, Option.some_or] at hcompletion
      exact h.completion (hbefore.trans hcompletion)

theorem Attributing.receive (h : Attributing own l) (hm : Belongs own l message) : Attributing own (l.receive message) := by
  unfold Lifecycle.receive
  dsimp only
  split
  · rename_i method params hmethod hparams
    have hresponse : ∀ given, turnResponse l.request message = some given → given = own := hm.response
    by_cases haccepts : Client.accepts { l with log := l.log ++ [message] } params = true
    · rw [if_pos haccepts]
      by_cases hid : (message.get? "id").isSome = true
      · have hnone : agentMessageOf l.threadId own message = none := by
          rw [agentMessageOf, notification_request hid]
          rfl
        rw [if_pos hid]
        exact (h.passed hresponse hnone).interrupted
      · rw [if_neg hid]
        exact h.taken hmethod (notification_eq hmethod hparams hid) haccepts hm
    · rw [if_neg haccepts]
      refine h.passed hresponse ?_
      by_cases hid : (message.get? "id").isSome = true
      · rw [agentMessageOf, notification_request hid]
        rfl
      · rw [agentMessageOf_eq (notification_eq hmethod hparams hid),
          if_neg fun hturn => haccepts (accepts_of_turn h hturn.1 hturn.2)]
  · rename_i hnot
    refine h.passed hm.response ?_
    have hnone : notification message = none := by
      unfold notification
      split
      · rename_i method params hmethod hparams _
        exact absurd hparams (hnot method params hmethod)
      · rfl
    rw [agentMessageOf, hnone]
    rfl

end

/-! ### The client -/

/-- An acknowledgement gives the turn of its request. -/
def Acknowledges (own : ℕ → String) (request : ℕ) (answer : Option Answer) : Prop :=
  ∀ value turnId, answer = some (.result value) → Client.turnOf value = some turnId → turnId = own request

/-- The lifecycle of a turn that is not known yet; what was observed is what it has learned. -/
def Registered (workflow : Option Lifecycle) (threadId : String) (request : ℕ) : Prop :=
  ∃ l, workflow = some l ∧ l.threadId = threadId ∧ l.request = request ∧ l.startObserved = l.turnId

/-- What is known where a call stands. -/
def Stands (own : ℕ → String) (workflow : Option Lifecycle) : Call → Prop
  | .starting threadId request answer => Registered workflow threadId request ∧ Acknowledges own request answer
  | .reconciling threadId request answer _ => Registered workflow threadId request ∧ Acknowledges own request answer
  | .running threadId turnId => ∃ l, workflow = some l ∧ l.threadId = threadId ∧ turnId = own l.request
  | .returned (.ok text threadId turnId) last =>
    ∃ l, last = some l ∧ turnId = own l.request ∧ Attributed l text threadId turnId
  | _ => True

structure Kept (own : ℕ → String) (c : Client) : Prop where
  workflow : ∀ l, c.workflow = some l → Attributing (own l.request) l
  stands : Stands own c.workflow c.call

section

variable {own : ℕ → String} {workflow : Option Lifecycle} {call : Call} {c c' : Client}

theorem Acknowledges.settle {id request : ℕ} {answer : Answer} {settled : Option Answer}
    (h : Acknowledges own request settled) (hanswer : Acknowledges own id (some answer)) :
    Acknowledges own request (settleOnce id request answer settled) := by
  unfold settleOnce
  by_cases hid : request = id
  · rw [if_pos hid]
    rcases hsettled : settled with _ | before
    · rw [hid]
      exact hanswer
    · rw [hsettled] at h
      exact h
  · rw [if_neg hid]
    exact h

theorem Stands.settle {id : ℕ} {answer : Answer} (h : Stands own workflow call)
    (hanswer : ∀ l, workflow = some l → l.request = id → Acknowledges own id (some answer)) :
    Stands own workflow (call.settle id answer) := by
  have hsettle : ∀ {threadId : String} {request : ℕ} {settled : Option Answer},
      Registered workflow threadId request ∧ Acknowledges own request settled →
        Registered workflow threadId request ∧ Acknowledges own request (settleOnce id request answer settled) := by
    rintro threadId request settled ⟨⟨l, hworkflow, hthread, hrequest, hknown⟩, hold⟩
    refine ⟨⟨l, hworkflow, hthread, hrequest, hknown⟩, ?_⟩
    by_cases hid : request = id
    · exact hold.settle (hanswer l hworkflow (hrequest.trans hid))
    · rw [settleOnce, if_neg hid]
      exact hold
  cases call with
  | idle => exact h
  | preparing resume process => exact h
  | openingThread resume request settled => trivial
  | starting threadId request settled => exact hsettle h
  | reconciling threadId request settled timedOut => exact hsettle h
  | running threadId turnId => exact h
  | interrupting threadId turnId => exact h
  | returned result last => exact h

/-- The lifecycle of the same turn, in which what was observed is still what it has learned. -/
def SameTurn (l l' : Lifecycle) : Prop :=
  l'.threadId = l.threadId ∧ l'.request = l.request ∧ (l.startObserved = l.turnId → l'.startObserved = l'.turnId)

theorem Registered.learn {f : Lifecycle → Lifecycle} (hf : ∀ l, SameTurn l (f l)) {threadId : String} {request : ℕ}
    (h : Registered workflow threadId request) : Registered (workflow.map f) threadId request := by
  obtain ⟨l, hworkflow, hthread, hrequest, hknown⟩ := h
  obtain ⟨hthread', hrequest', hknown'⟩ := hf l
  refine ⟨f l, ?_, hthread'.trans hthread, hrequest'.trans hrequest, hknown' hknown⟩
  rw [hworkflow]
  rfl

theorem Stands.learn {f : Lifecycle → Lifecycle} (hf : ∀ l, SameTurn l (f l)) (h : Stands own workflow call) :
    Stands own (workflow.map f) call := by
  cases call with
  | idle => trivial
  | preparing resume process => trivial
  | openingThread resume request settled => trivial
  | starting threadId request settled => exact ⟨h.1.learn hf, h.2⟩
  | reconciling threadId request settled timedOut => exact ⟨h.1.learn hf, h.2⟩
  | running threadId turnId =>
    obtain ⟨l, hworkflow, hthread, hturn⟩ := h
    obtain ⟨hthread', hrequest', -⟩ := hf l
    refine ⟨f l, ?_, hthread'.trans hthread, ?_⟩
    · rw [hworkflow]
      rfl
    · rw [hrequest']
      exact hturn
  | interrupting threadId turnId => trivial
  | returned result last =>
    cases result with
    | ok text threadId turnId => exact h
    | failed reason threadId turnId => trivial

theorem Kept.settle (h : Kept own c) {id : ℕ} {answer : Answer} (hanswer : ∀ value, answer ≠ .result value) :
    Kept own (c.settle id answer) where
  workflow := h.workflow
  stands := h.stands.settle fun _ _ _ value _ hvalue => absurd (Option.some.inj hvalue) (hanswer value)

theorem Kept.failProcess (h : Kept own c) : Kept own c.failProcess := by
  have hall : ∀ (pending : List Pending) {c : Client}, Kept own c →
      Kept own (pending.foldl (fun c pending => c.settle pending.id .unavailable) c) := by
    intro pending
    induction pending with
    | nil => exact fun h => h
    | cons p pending ih => exact fun h => ih (h.settle fun value hvalue => by cases hvalue)
  have hsettled := hall c.pending h
  exact ⟨hsettled.workflow, hsettled.stands⟩

theorem receive_sameTurn (l : Lifecycle) (message : Json) : SameTurn l (l.receive message) := by
  unfold Lifecycle.receive
  dsimp only
  split
  · rename_i method params _ _
    split
    · split
      · exact ⟨rfl, rfl, fun hknown => hknown⟩
      · rw [finish_eq]
        exact ⟨rfl, rfl, fun hknown => congrArg (Option.or · (observedId params)) hknown⟩
    · exact ⟨rfl, rfl, fun hknown => hknown⟩
  · exact ⟨rfl, rfl, fun hknown => hknown⟩

theorem receiveResponse_call (message : Json) (hmethod : string? message "method" = none) :
    (c.receiveResponse message).call = c.call ∨ ∃ id answer, (c.receiveResponse message).call = c.call.settle id answer ∧
      ∀ value turnId, answer = .result value → Client.turnOf value = some turnId →
        turnResponse id message = some turnId := by
  unfold Client.receiveResponse
  split
  · rename_i n hid
    split
    · rename_i pending hpending
      refine .inr ⟨pending.id, _, rfl, fun value turnId hvalue hturn => ?_⟩
      have hsame : (pending.id : ℤ) = n := eq_of_beq (List.find?_some (p := fun p : Pending => (p.id : ℤ) == n) hpending)
      by_cases herror : (message.get? "error").isNone = true
      · rw [if_pos herror] at hvalue
        obtain rfl := Answer.result.inj hvalue
        rw [turnResponse, hmethod, Option.isSome_none, if_neg Bool.false_ne_true, hid, Option.isNone_iff_eq_none.mp herror]
        dsimp only
        rw [if_pos hsame.symm]
        exact (Option.filter_eq_some_iff.mp hturn).1
      · rw [if_neg herror] at hvalue
        cases hvalue
    · exact .inl rfl
  · exact .inl rfl

theorem receive_call (message : Json) :
    (c.receive message).call = c.call ∨ ∃ id answer, (c.receive message).call = c.call.settle id answer ∧
      ∀ value turnId, answer = .result value → Client.turnOf value = some turnId →
        turnResponse id message = some turnId := by
  have hresponse : string? message "method" = none →
      (Client.receiveResponse { c with workflow := c.workflow.map fun l => { l with log := l.log ++ [message] } } message).call =
        c.call ∨ ∃ id answer, (Client.receiveResponse
          { c with workflow := c.workflow.map fun l => { l with log := l.log ++ [message] } } message).call =
            c.call.settle id answer ∧ ∀ value turnId, answer = .result value → Client.turnOf value = some turnId →
              turnResponse id message = some turnId := fun hmethod => receiveResponse_call message hmethod
  unfold Client.receive
  dsimp only
  split
  · split
    · split
      · exact .inl rfl
      · exact .inl rfl
    · exact .inl rfl
  · rename_i hnot
    refine hresponse ?_
    unfold string?
    rcases hmethod : message.get? "method" with _ | method
    · rfl
    · cases method with
      | str method => exact absurd hmethod (hnot method)
      | null => rfl
      | bool b => rfl
      | num n => rfl
      | arr items => rfl
      | obj fields => rfl

theorem Kept.receive (h : Kept own c) {message : Json}
    (hm : ∀ l, c.workflow = some l → Belongs (own l.request) l message) : Kept own (c.receive message) := by
  refine ⟨fun l' hl => ?_, ?_⟩
  · rw [Client.receive_workflow] at hl
    obtain ⟨l, hworkflow, rfl⟩ := Option.map_eq_some_iff.mp hl
    rw [(receive_sameTurn l message).2.1]
    exact (h.workflow l hworkflow).receive (hm l hworkflow)
  · rw [Client.receive_workflow]
    refine Stands.learn (fun l => receive_sameTurn l message) ?_
    rcases receive_call (c := c) message with hcall | ⟨id, answer, hcall, hanswer⟩
    · rw [hcall]
      exact h.stands
    · rw [hcall]
      refine h.stands.settle fun l hworkflow hrequest value turnId hvalue hturn => ?_
      have hgiven := hanswer value turnId (Option.some.inj hvalue) hturn
      rw [← hrequest] at hgiven ⊢
      exact (hm l hworkflow).response turnId hgiven

theorem Kept.runTurn (h : Kept own c) {threadId turnId : String} {request : ℕ}
    (hregistered : Registered c.workflow threadId request) (hturn : turnId = own request) :
    Kept own (c.runTurn threadId turnId request) := by
  obtain ⟨l, hworkflow, hthread, hrequest, -⟩ := hregistered
  refine ⟨fun l' hl => ?_, { l with turnId := some turnId }, ?_, hthread, hturn.trans (congrArg own hrequest.symm)⟩
  · obtain ⟨old, hold, rfl⟩ := Option.map_eq_some_iff.mp hl
    obtain rfl := Option.some.inj (hworkflow.symm.trans hold)
    have hkept := h.workflow l hworkflow
    refine ⟨fun known hknown => ?_, hkept.responses, hkept.text, hkept.completion⟩
    rw [← Option.some.inj hknown, hturn, ← hrequest]
  · show c.workflow.map _ = _
    rw [hworkflow]
    rfl

theorem Kept.observed (h : Kept own c) {threadId turnId : String} {request : ℕ}
    (hregistered : Registered c.workflow threadId request)
    (hturn : c.workflow.bind (·.startObserved) = some turnId) : turnId = own request := by
  obtain ⟨l, hworkflow, hstart⟩ := Option.bind_eq_some_iff.mp hturn
  obtain ⟨l', hworkflow', -, hrequest, hknown⟩ := hregistered
  obtain rfl := Option.some.inj (hworkflow.symm.trans hworkflow')
  rw [← hrequest]
  exact (h.workflow l hworkflow).turnId turnId (hknown.symm.trans hstart)

theorem kept_returning_failed (reason : FailureReason) (threadId turnId : Option String) :
    Kept own (c.returning (.failed reason threadId turnId)) :=
  ⟨fun l hl => (by cases hl), trivial⟩

theorem kept_ready (h : Kept own c) {spawns : Bool} {process : ℕ} (hready : c.ready spawns = some (c', process)) :
    Kept own c' := by
  rcases Client.ready_cases hready with ⟨rfl, -⟩ | ⟨rfl, -⟩
  · exact h
  · exact ⟨h.workflow, h.stands⟩

theorem kept_race (h : Kept own c) {threadId : String} {request : ℕ} {answer : Option Answer} {first : Client.First}
    (hcall : c.call = .starting threadId request answer) (hmove : c.race threadId request answer first = some c') :
    Kept own c' := by
  have hstands := h.stands
  rw [hcall] at hstands
  obtain ⟨hregistered, hanswer⟩ := hstands
  cases first with
  | acknowledgement =>
    unfold Client.race at hmove
    dsimp only at hmove
    split at hmove
    · cases hmove
    · cases hmove
      exact kept_returning_failed _ _ _
    · rename_i value
      split at hmove
      · rename_i turnId hturn
        cases hmove
        exact h.runTurn hregistered (hanswer value turnId rfl hturn)
      · cases hmove
        exact ⟨h.workflow, hregistered, hanswer⟩
    · cases hmove
      exact ⟨h.workflow, hregistered, hanswer⟩
    · cases hmove
      exact ⟨h.workflow, hregistered, hanswer⟩
  | deadline =>
    cases hmove
    exact ⟨h.workflow, hregistered, hanswer⟩
  | observed =>
    obtain ⟨turnId, hturn, rfl⟩ := Option.map_eq_some_iff.mp hmove
    exact h.runTurn hregistered (h.observed hregistered hturn)

theorem kept_reconcile (h : Kept own c) {threadId : String} {request : ℕ} {answer : Option Answer} {timedOut : Bool}
    {first : Client.First} (hcall : c.call = .reconciling threadId request answer timedOut)
    (hmove : c.reconcile threadId request answer timedOut first = some c') : Kept own c' := by
  have hstands := h.stands
  rw [hcall] at hstands
  obtain ⟨hregistered, hanswer⟩ := hstands
  cases first with
  | acknowledgement =>
    unfold Client.reconcile at hmove
    dsimp only at hmove
    split at hmove
    · rename_i value
      split at hmove
      · rename_i turnId hturn
        cases hmove
        exact h.runTurn hregistered (hanswer value turnId rfl hturn)
      · cases hmove
        exact kept_returning_failed _ _ _
    · cases hmove
      exact kept_returning_failed _ _ _
    · cases hmove
  | deadline =>
    cases hmove
    exact kept_returning_failed _ _ _
  | observed =>
    obtain ⟨turnId, hturn, rfl⟩ := Option.map_eq_some_iff.mp hmove
    exact h.runTurn hregistered (h.observed hregistered hturn)

theorem kept_enterThread (resume : Option String) (answer : Answer) :
    Kept own (c.enterThread resume answer) := by
  unfold Client.enterThread
  split
  · split
    · rename_i threadId _
      split
      · exact kept_returning_failed _ _ _
      · refine ⟨fun l hl => ?_, ⟨_, rfl, rfl, rfl, rfl⟩, fun value turnId hvalue => (by cases hvalue)⟩
        cases hl
        exact ⟨fun _ hturn => (by cases hturn), fun m hm => absurd hm List.not_mem_nil, fun _ htext => (by cases htext),
          fun hover => (by cases hover)⟩
    · exact kept_returning_failed _ _ _
  · exact kept_returning_failed _ _ _

theorem kept_conclude (h : Kept own c) {threadId turnId : String} {l : Lifecycle} {completion : Completion}
    (hcall : c.call = .running threadId turnId) (hworkflow : c.workflow = some l)
    (hcompletion : l.completion = some completion) : Kept own (c.conclude threadId turnId l completion) := by
  have hstands := h.stands
  rw [hcall] at hstands
  obtain ⟨l', hworkflow', hthread, hturn⟩ := hstands
  obtain rfl := Option.some.inj (hworkflow.symm.trans hworkflow')
  have hkept := h.workflow l hworkflow
  cases completion with
  | interaction => exact ⟨h.workflow, trivial⟩
  | failed => exact kept_returning_failed _ _ _
  | completed =>
    unfold Client.conclude
    dsimp only
    split
    · exact kept_returning_failed _ _ _
    · rename_i text htext
      split
      · exact kept_returning_failed _ _ _
      · refine ⟨fun l hl => (by cases hl), l, hworkflow, hturn, fun message hm given hgiven => ?_, ?_, ?_⟩
        · exact hturn.trans (hkept.responses message hm given hgiven).symm
        · rw [hturn, ← hthread]
          exact hkept.text text htext
        · rw [hturn, ← hthread]
          exact hkept.completion hcompletion

end

/-! ### Runs -/

/-- **One move.** -/
theorem kept_step {own : ℕ → String} {c c' : Client} {m : Move} (h : Kept own c) (hgood : Faithful own c m)
    (hmove : c.step m = some c') : Kept own c' := by
  cases Client.step_outcome hmove with
  | called resumeThreadId spawns hready => exact ⟨(kept_ready h hready).workflow, trivial⟩
  | uncalled resumeThreadId spawns => exact kept_returning_failed _ _ _
  | readied spawns hready => exact kept_ready h hready
  | requested => exact ⟨h.workflow, h.stands⟩
  | received message => exact h.receive (hgood message rfl)
  | writeFailed id =>
    have habandoned : Kept own (c.abandon id) := ⟨h.workflow, h.stands⟩
    exact (habandoned.settle fun value hvalue => by cases hvalue).failProcess
  | timedOut id =>
    have habandoned : Kept own (c.abandon id) := ⟨h.workflow, h.stands⟩
    exact habandoned.settle fun value hvalue => by cases hvalue
  | childFailed process trigger => exact h.failProcess
  | closed =>
    split
    · exact h.failProcess
    · exact h
  | initialized process hready =>
    unfold Client.initialized
    split
    · exact ⟨h.workflow, h.stands⟩
    · exact ⟨h.failProcess.workflow, h.failProcess.stands⟩
  | announced process => exact ⟨h.workflow, h.stands⟩
  | announceFailed process => exact ⟨h.failProcess.workflow, h.failProcess.stands⟩
  | prepared resume => exact ⟨h.workflow, trivial⟩
  | unprepared resume => exact kept_returning_failed _ _ _
  | threadOpened resume answer => exact kept_enterThread resume answer
  | raced hcall hrace => exact kept_race h hcall hrace
  | reconciled hcall hreconcile => exact kept_reconcile h hcall hreconcile
  | concluded hcall hworkflow hcompletion => exact kept_conclude h hcall hworkflow hcompletion
  | interrupted threadId turnId => exact kept_returning_failed _ _ _

theorem kept_initial (own : ℕ → String) : Kept own initial := ⟨fun l hl => (by cases hl), trivial⟩

/-- In every run in which what is received while a turn is registered belongs to that turn, a result is that of its
turn, and the turn is its own. -/
theorem result_attributed {own : ℕ → String} {c : Client} (h : Reaches Client.step (Faithful own) initial c)
    {text threadId turnId : String} {last : Option Lifecycle}
    (hreturned : c.call = .returned (.ok text threadId turnId) last) :
    ∃ l, last = some l ∧ turnId = own l.request ∧ Attributed l text threadId turnId := by
  have hkept : Kept own c := h.invariant (kept_initial own) fun hv hgood hmove => kept_step hv hgood hmove
  have hstands := hkept.stands
  rw [hreturned] at hstands
  exact hstands

namespace Sample

/-- What belongs to a turn, as a test. -/
def belongs (own : String) (l : Lifecycle) (message : Json) : Bool :=
  (turnResponse l.request message).all (· == own) && (notification message).all fun n =>
    !Client.accepts l n.2 || ((l.turnId.isSome || (observedId n.2).all (· == own)) &&
      (!(agentMessage n.1 n.2).isSome || string? n.2 "turnId" == some own) &&
        (n.1 != "turn/completed" || observedId n.2 == some own))

theorem belongs_sound {own : String} {l : Lifecycle} {message : Json} (h : belongs own l message = true) :
    Belongs own l message := by
  rw [belongs, Bool.and_eq_true, Option.all_eq_true, Option.all_eq_true] at h
  obtain ⟨hresponse, hnotification⟩ := h
  refine ⟨fun given hgiven => eq_of_beq (hresponse given hgiven), fun method params hsome haccepts => ?_⟩
  have htaken := hnotification (method, params) hsome
  rw [haccepts, Bool.not_true, Bool.false_or, Bool.and_eq_true, Bool.and_eq_true] at htaken
  obtain ⟨⟨hnamed, hagent⟩, hended⟩ := htaken
  refine ⟨fun hunknown turnId hturn => ?_, fun hmessage => ?_, fun hends => ?_⟩
  · rw [hunknown, Option.isSome_none, Bool.false_or, Option.all_eq_true] at hnamed
    exact eq_of_beq (hnamed turnId hturn)
  · rw [hmessage, Bool.not_true, Bool.false_or] at hagent
    exact eq_of_beq hagent
  · rw [hends, bne_self_eq_false, Bool.false_or] at hended
    exact eq_of_beq hended

/-- While a turn is registered, what is received belongs to `turn-1`. -/
def faithful (c : Client) : Move → Bool
  | .line message => c.workflow.all fun l => belongs "turn-1" l message
  | _ => true

theorem faithful_sound {c : Client} {m : Move} (h : faithful c m = true) : Faithful (fun _ => "turn-1") c m := by
  rintro message rfl l hl
  rw [faithful, hl, Option.all_some] at h
  exact belongs_sound h

/-- An agent message of a turn is completed. -/
def said (turnId text : String) : Move :=
  .line (.obj [("method", .str "item/completed"), ("params", .obj [("threadId", .str "thread-1"), ("turnId", .str turnId),
    ("item", .obj [("type", .str "agentMessage"), ("text", .str text)])])])

def ended (turnId : String) : Move :=
  .line (.obj [("method", .str "turn/completed"), ("params", .obj [("threadId", .str "thread-1"),
    ("turn", .obj [("id", .str turnId), ("status", .str "completed")])])])

/-- A thread is resumed, up to its `turn/start`. -/
def resumed : List Move :=
  [.call (some "thread-1") true, response 1 .null, .initialized 1, .announced 1, .prepared,
    response 2 (named "thread" "thread-1"), .threadOpened]

/-- A call has returned a text of a turn, and the last response to its request gave another one or the same. -/
def gave (text turnId : String) (given : Option String) (c : Client) : Bool :=
  match c.call with
  | .returned (.ok t threadId u) (some l) =>
    t == text && threadId == "thread-1" && u == turnId && (l.log.filterMap (turnResponse l.request)).getLast? == given
  | _ => false

theorem gave_sound {text turnId : String} {given : Option String} {c : Client} (h : gave text turnId given c = true) :
    ∃ l, c.call = .returned (.ok text "thread-1" turnId) (some l) ∧
      (l.log.filterMap (turnResponse l.request)).getLast? = given := by
  unfold gave at h
  split at h
  · rename_i t threadId u l hcall
    rw [Bool.and_eq_true, Bool.and_eq_true, Bool.and_eq_true] at h
    obtain ⟨⟨⟨htext, hthread⟩, hturn⟩, hgiven⟩ := h
    obtain rfl := eq_of_beq htext
    obtain rfl := eq_of_beq hthread
    obtain rfl := eq_of_beq hturn
    exact ⟨l, hcall, eq_of_beq hgiven⟩
  · cases h

end Sample

open Sample in
/-- A turn of a resumed thread, whose messages name it. -/
theorem result_attributed_resumed : ∃ l, Attributed l "Done" "thread-1" "turn-1" := by
  obtain ⟨c, hreach, hgave⟩ : ∃ c, Reaches Client.step (fun c m => faithful c m = true) initial c ∧
      gave "Done" "turn-1" (some "turn-1") c = true :=
    reaches_of_any faithful (resumed ++ [said "turn-1" "Looking", response 3 (named "turn" "turn-1"),
      .raced .acknowledgement, said "turn-1" "Done", ended "turn-1", .concluded]) _ (by decide +kernel)
  obtain ⟨l, hcall, -⟩ := gave_sound hgave
  obtain ⟨l', -, -, hattributed⟩ := result_attributed (hreach.mono fun c m h => faithful_sound h) hcall
  exact ⟨l', hattributed⟩

open Sample in
/-- Notifications of the turn before come late: its text is given for its turn, and the response gives another one. -/
theorem earlier_turn_reported : ¬ ∀ (c : Client) (text threadId turnId : String) (last : Option Lifecycle),
    Reaches Client.step (fun _ _ => True) initial c → c.call = .returned (.ok text threadId turnId) last →
      ∃ l, last = some l ∧ Attributed l text threadId turnId := by
  intro hall
  obtain ⟨c, hreach, hgave⟩ : ∃ c, Reaches Client.step (fun _ _ => true = true) initial c ∧
      gave "Before" "turn-0" (some "turn-1") c = true :=
    reaches_of_any (fun _ _ => true) (resumed ++ [said "turn-0" "Before", ended "turn-0",
      response 3 (named "turn" "turn-1"), .raced .observed, .concluded]) _ (by decide +kernel)
  obtain ⟨l, hcall, hlast⟩ := gave_sound hgave
  obtain ⟨l', hl, hgiven, -⟩ := hall c _ _ _ _ (hreach.mono fun _ _ _ => trivial) hcall
  cases hl
  obtain ⟨message, hmessage, hresponse⟩ := List.mem_filterMap.mp (List.mem_of_getLast? hlast)
  have hsame : "turn-0" = "turn-1" := hgiven message hmessage "turn-1" hresponse
  exact absurd hsame (by decide)

end ADT.AppServer
