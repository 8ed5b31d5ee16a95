import ADT.Lib.NetAddress
import ADT.Lib.Ran

/-!
# Runtime.McpFetch — where the requests to an MCP server go

`safeFetch` of `adt-runtime/src/mcp.ts`: a request goes to a destination whose addresses were checked, over a connection
that is pinned to them, and follows at most two redirects of the same origin.  The answers of the name service and of
the server are arbitrary, and so is what a text means as a URL.
-/

namespace ADT.McpFetch

open Interleave NetAddress

/-! ### Destinations -/

/-- What is read of a `URL`; `innerOrigin` is the origin under a scheme without a host of its own. -/
structure Url where
  protocol : String
  username : String
  password : String
  hostname : String
  port : String
  path : String
  hash : String
  innerOrigin : String
  deriving DecidableEq

def Url.host (url : Url) : String := if url.port = "" then url.hostname else url.hostname ++ ":" ++ url.port

def Url.origin (url : Url) : String :=
  if url.protocol = "https:" ∨ url.protocol = "http:" then url.protocol ++ "//" ++ url.host else url.innerOrigin

structure LookupAddress where
  address : String
  family : ℕ

structure McpFailure where
  category : String
  safeMessage : String

/-- A redirect may lead to a text that is no URL. -/
inductive Thrown
  | mcp (failure : McpFailure)
  | typeError

def notPermitted : Thrown := .mcp ⟨"configuration_invalid", "MCP server destination is not permitted."⟩

def forbidden : BlockList where
  ipv4 := [("0.0.0.0", 8), ("10.0.0.0", 8), ("100.64.0.0", 10), ("127.0.0.0", 8), ("169.254.0.0", 16),
    ("172.16.0.0", 12), ("192.0.0.0", 24), ("192.0.2.0", 24), ("192.168.0.0", 16), ("198.18.0.0", 15),
    ("198.51.100.0", 24), ("203.0.113.0", 24), ("224.0.0.0", 4), ("240.0.0.0", 4)]
  ipv6 := [("::", 128), ("::1", 128), ("64:ff9b:1::", 48), ("100::", 64), ("2001:2::", 48), ("2001:10::", 28),
    ("2001:db8::", 32), ("fc00::", 7), ("fe80::", 10), ("ff00::", 8)]

/-- The address of the fourth version in `::ffff:` and four decimal numbers. -/
def mappedAddress (address : String) : Option String :=
  let cs := address.toList
  let rest := cs.drop 7
  if (cs.take 7).map Char.toLower = "::ffff:".toList ∧ (rest.splitOn '.').length = 4 ∧
      (rest.splitOn '.').all fun part => 1 ≤ part.length && part.length ≤ 3 && part.all Char.isDigit then
    some (String.ofList rest)
  else none

def isForbiddenMcpAddress (address : String) : Bool :=
  let address := (mappedAddress address).getD address
  isIP address == 0 || forbidden.check address

def localhost (url : Url) : Bool :=
  url.hostname == "localhost" || url.hostname == "127.0.0.1" || url.hostname == "[::1]"

def loopback (url : Url) : LookupAddress :=
  if url.hostname = "[::1]" then ⟨"::1", 6⟩ else ⟨"127.0.0.1", 4⟩

/-! ### Requests -/

structure Response where
  status : ℕ
  location : Option String

/-- A request: its headers may hold the credential, and its connection looks up the addresses. -/
structure Dispatch where
  url : Url
  authorization : Option String
  hostname : String
  addresses : List LookupAddress

inductive Request
  | resolve (hostname : String)
  | fetch (dispatch : Dispatch)

/-- The name service answers or fails; the fetch answers, or fails with a failure of its own or another error. -/
abbrev Request.Answer : Request → Type
  | resolve _ => Except Unit (List LookupAddress)
  | fetch _ => Except (Option McpFailure) Response

abbrev Sig : Signature := ⟨Request, Request.Answer⟩

abbrev Task (α : Type) := Prog Sig Thrown α

def ask (q : Request) : Task q.Answer := .ask q .done

structure McpServerConfig where
  url : String
  allowLocalhost : Bool

/-- `destination` of a URL, with the addresses to connect to. -/
def destination (url : Url) (allowLocalhost : Bool) : Task (List LookupAddress) :=
  if url.username ≠ "" ∨ url.password ≠ "" ∨ url.hash ≠ "" then throw notPermitted
  else if allowLocalhost ∧ url.protocol = "http:" ∧ localhost url then pure [loopback url]
  else if url.protocol ≠ "https:" then throw notPermitted
  else do
    let answer ← ask (.resolve url.hostname)
    match answer with
    | .error _ => throw (.mcp ⟨"connection_unavailable", "MCP server is unavailable."⟩)
    | .ok addresses =>
      if addresses.isEmpty || addresses.any (isForbiddenMcpAddress ·.address) then throw notPermitted
      else pure addresses

/-- `createPinnedLookup`: what a connection finds when it looks up a name, in one family or (`0`) in any. -/
def createPinnedLookup (hostname : String) (addresses : List LookupAddress) (requested : String) (family : ℕ)
    (all : Bool) : Except String (List LookupAddress) :=
  if requested ≠ hostname then .error "EPERM"
  else
    let eligible := if family ≠ 0 then addresses.filter (·.family = family) else addresses
    if eligible.isEmpty then .error "ENOTFOUND" else .ok (if all then eligible else eligible.take 1)

def maxRedirects : ℕ := 2

def bearer (credential : Option String) : Option String := (credential.filter (· ≠ "")).map ("Bearer " ++ ·)

def redirectRejected (category : String) : Thrown := .mcp ⟨category, "MCP server redirect was rejected."⟩

section

variable (newUrl : String → Option Url) (newUrlFrom : String → Url → Option Url)

/-- One fetch of the loop; `redirect` goes on at a location. -/
def fetchOnce (credential : Option String) (initialOrigin : String) (url : Url) (addresses : List LookupAddress)
    (redirect : String → Task Response) : Task Response :=
  if url.origin ≠ initialOrigin then throw (redirectRejected "configuration_invalid")
  else do
    let answer ← ask (.fetch ⟨url, bearer credential, url.hostname, addresses⟩)
    match answer with
    | .error (some failure) => throw (.mcp failure)
    | .error none => throw (.mcp ⟨"connection_unavailable", "MCP server request failed safely."⟩)
    | .ok response =>
      if 400 ≤ response.status then
        let category := if response.status = 401 then "authentication_failed"
          else if response.status = 403 then "permission_denied" else "connection_unavailable"
        throw (.mcp ⟨category, "MCP server rejected the request."⟩)
      else if response.status < 300 then return response
      else
        match response.location.filter (· ≠ "") with
        | none => throw (redirectRejected "connection_unavailable")
        | some location => redirect location

/-- The loop of `safeFetch`, with `left` redirects still to follow. -/
def safeFetchFrom (config : McpServerConfig) (credential : Option String) (initialOrigin : String) :
    ℕ → Url → List LookupAddress → Task Response
  | 0, url, addresses =>
    fetchOnce credential initialOrigin url addresses fun _ => throw (redirectRejected "connection_unavailable")
  | left + 1, url, addresses =>
    fetchOnce credential initialOrigin url addresses fun location =>
      match newUrlFrom location url with
      | none => throw .typeError
      | some next =>
        if next.origin ≠ url.origin then throw (redirectRejected "configuration_invalid")
        else do
          let addresses ← destination next config.allowLocalhost
          safeFetchFrom config credential initialOrigin left next addresses

def safeFetch (config : McpServerConfig) (credential : Option String) (input : String) : Task Response :=
  match newUrl input with
  | none => throw (.mcp ⟨"configuration_invalid", "MCP server configuration is invalid."⟩)
  | some url => do
    let addresses ← destination url config.allowLocalhost
    safeFetchFrom newUrlFrom config credential url.origin maxRedirects url addresses

end

/-! ### Trips -/

/-- What a program asked and was answered, in order. -/
abbrev Events := List ((q : Request) × q.Answer)

/-- The addresses were answered for the host name and none is forbidden; or the host is this one, and that is allowed. -/
inductive Checked (allowLocalhost : Bool) (url : Url) : List LookupAddress → Events → Prop
  | resolved {addresses : List LookupAddress} (hne : addresses ≠ [])
      (hfree : ∀ a ∈ addresses, isForbiddenMcpAddress a.address = false) :
      Checked allowLocalhost url addresses [⟨.resolve url.hostname, .ok addresses⟩]
  | local (hallowed : allowLocalhost = true) (hscheme : url.protocol = "http:") (hlocal : localhost url = true) :
      Checked allowLocalhost url [loopback url] []

/-- The fetches of a trip, with their answers. -/
def fetches : Events → List (Dispatch × Except (Option McpFailure) Response)
  | [] => []
  | ⟨.fetch dispatch, answer⟩ :: events => (dispatch, answer) :: fetches events
  | ⟨.resolve _, _⟩ :: events => fetches events

theorem fetches_append (before after : Events) : fetches (before ++ after) = fetches before ++ fetches after := by
  induction before with
  | nil => rfl
  | cons x before ih =>
    obtain ⟨q, a⟩ := x
    cases q with
    | resolve hostname => exact ih
    | fetch dispatch => exact congrArg ((dispatch, a) :: ·) ih

theorem fetches_checked {allowLocalhost : Bool} {url : Url} {addresses : List LookupAddress} {events : Events}
    (h : Checked allowLocalhost url addresses events) : fetches events = [] := by
  cases h with
  | resolved => rfl
  | «local» => rfl

section

variable (newUrlFrom : String → Url → Option Url) (allowLocalhost : Bool) (authorization : Option String) (origin : String)

/-- The answer redirects the request to the next URL. -/
def Redirects (dispatch : Dispatch) (answer : Except (Option McpFailure) Response) (next : Url) : Prop :=
  ∃ response location, answer = .ok response ∧ 300 ≤ response.status ∧ response.status < 400 ∧
    response.location = some location ∧ newUrlFrom location dispatch.url = some next ∧
    next.origin = dispatch.url.origin

/-- A trip from a destination: it stops without a fetch, or fetches and ends, or fetches and is redirected. -/
inductive Trip : ℕ → Url → Events → Prop
  | stop {left : ℕ} {url : Url} {events : Events} (h : fetches events = []) : Trip left url events
  | last {left : ℕ} {url : Url} {addresses : List LookupAddress} {found : Events}
    (hchecked : Checked allowLocalhost url addresses found)
      (horigin : url.origin = origin) (answer : Except (Option McpFailure) Response) :
      Trip left url (found ++ [⟨.fetch ⟨url, authorization, url.hostname, addresses⟩, answer⟩])
  | hop {left : ℕ} {url next : Url} {addresses : List LookupAddress} {found rest : Events}
      {answer : Except (Option McpFailure) Response} (hchecked : Checked allowLocalhost url addresses found)
      (horigin : url.origin = origin)
      (hredirect : Redirects newUrlFrom ⟨url, authorization, url.hostname, addresses⟩ answer next)
      (h : Trip left next rest) :
      Trip (left + 1) url (found ++ ⟨.fetch ⟨url, authorization, url.hostname, addresses⟩, answer⟩ :: rest)

variable {newUrlFrom allowLocalhost authorization origin}

theorem ran_throw {α : Type} {e : Thrown} {events : Events} {r : Except Thrown α}
    (h : (throw e : Task α).Ran events r) : events = [] ∧ r = .error e := by
  cases h
  exact ⟨rfl, rfl⟩

theorem ran_pure {α : Type} {a : α} {events : Events} {r : Except Thrown α} (h : (pure a : Task α).Ran events r) :
    events = [] ∧ r = .ok a := by
  cases h
  exact ⟨rfl, rfl⟩

theorem destination_ran {url : Url} {events : Events} {r : Except Thrown (List LookupAddress)}
    (h : (destination url allowLocalhost).Ran events r) :
    fetches events = [] ∧ ∀ addresses, r = .ok addresses → Checked allowLocalhost url addresses events := by
  unfold destination at h
  by_cases hplain : url.username ≠ "" ∨ url.password ≠ "" ∨ url.hash ≠ ""
  · rw [if_pos hplain] at h
    obtain ⟨rfl, rfl⟩ := ran_throw h
    exact ⟨rfl, fun addresses heq => by cases heq⟩
  rw [if_neg hplain] at h
  by_cases hlocal : allowLocalhost ∧ url.protocol = "http:" ∧ localhost url
  · rw [if_pos hlocal] at h
    obtain ⟨rfl, rfl⟩ := ran_pure h
    refine ⟨rfl, fun addresses heq => ?_⟩
    rw [← Except.ok.inj heq]
    exact .local hlocal.1 hlocal.2.1 hlocal.2.2
  rw [if_neg hlocal] at h
  by_cases hscheme : url.protocol ≠ "https:"
  · rw [if_pos hscheme] at h
    obtain ⟨rfl, rfl⟩ := ran_throw h
    exact ⟨rfl, fun addresses heq => by cases heq⟩
  rw [if_neg hscheme] at h
  obtain ⟨answer, rest, rfl, hanswer⟩ := Prog.ran_ask.mp h
  cases answer with
  | error e =>
    obtain ⟨rfl, rfl⟩ := ran_throw hanswer
    exact ⟨rfl, fun addresses heq => by cases heq⟩
  | ok found =>
    replace hanswer : Prog.Ran (if found.isEmpty || found.any (isForbiddenMcpAddress ·.address) then
      (throw notPermitted : Task (List LookupAddress)) else pure found) rest r := hanswer
    by_cases hbad : (found.isEmpty || found.any (isForbiddenMcpAddress ·.address)) = true
    · rw [if_pos hbad] at hanswer
      obtain ⟨rfl, rfl⟩ := ran_throw hanswer
      exact ⟨rfl, fun addresses heq => by cases heq⟩
    · rw [if_neg hbad] at hanswer
      obtain ⟨rfl, rfl⟩ := ran_pure hanswer
      refine ⟨rfl, fun addresses heq => ?_⟩
      cases heq
      rw [Bool.or_eq_true, not_or, Bool.not_eq_true, List.isEmpty_eq_false_iff, Bool.not_eq_true, List.any_eq_false] at hbad
      exact .resolved hbad.1 fun a ha => by simpa using hbad.2 a ha

variable {config : McpServerConfig} {credential : Option String}
variable {addresses : List LookupAddress} {r : Except Thrown Response} {dispatch : Dispatch}
  {answer : Except (Option McpFailure) Response}

theorem fetchOnce_ran {url : Url} {redirect : String → Task Response} {events : Events}
    (h : (fetchOnce credential origin url addresses redirect).Ran events r) :
    events = [] ∨ url.origin = origin ∧ ∃ answer rest,
      events = ⟨.fetch ⟨url, bearer credential, url.hostname, addresses⟩, answer⟩ :: rest ∧
      (rest = [] ∨ ∃ response location, answer = .ok response ∧ 300 ≤ response.status ∧ response.status < 400 ∧
        response.location = some location ∧ (redirect location).Ran rest r) := by
  unfold fetchOnce at h
  by_cases horigin : url.origin ≠ origin
  · rw [if_pos horigin] at h
    exact .inl (ran_throw h).1
  rw [if_neg horigin] at h
  obtain ⟨answer, rest, rfl, hanswer⟩ := Prog.ran_ask.mp h
  refine .inr ⟨not_not.mp horigin, answer, rest, rfl, ?_⟩
  cases answer with
  | error failure =>
    cases failure with
    | none => exact .inl (ran_throw hanswer).1
    | some failure => exact .inl (ran_throw hanswer).1
  | ok response =>
    replace hanswer : Prog.Ran (if 400 ≤ response.status then _ else _ : Task Response) rest r := hanswer
    by_cases hfail : 400 ≤ response.status
    · rw [if_pos hfail] at hanswer
      exact .inl (ran_throw hanswer).1
    rw [if_neg hfail] at hanswer
    by_cases hok : response.status < 300
    · rw [if_pos hok] at hanswer
      exact .inl (ran_pure hanswer).1
    rw [if_neg hok] at hanswer
    cases hlocation : response.location.filter (· ≠ "") with
    | none =>
      rw [hlocation] at hanswer
      exact .inl (ran_throw hanswer).1
    | some location =>
      rw [hlocation] at hanswer
      exact .inr ⟨response, location, rfl, not_lt.mp hok, not_le.mp hfail, (Option.filter_eq_some_iff.mp hlocation).1,
        hanswer⟩

/-- **Every run of the fetch** is a trip from one checked address to the next. -/
theorem safeFetchFrom_trip {left : ℕ} {url : Url} {found events : Events}
    (hchecked : Checked config.allowLocalhost url addresses found)
    (h : (safeFetchFrom newUrlFrom config credential origin left url addresses).Ran events r) :
    Trip newUrlFrom config.allowLocalhost (bearer credential) origin left url (found ++ events) := by
  induction left generalizing url addresses found events with
  | zero =>
    rcases fetchOnce_ran h with rfl | ⟨horigin, answer, rest, rfl, hrest⟩
    · rw [List.append_nil]
      exact .stop (fetches_checked hchecked)
    · have hend : rest = [] := by
        rcases hrest with hend | ⟨response, location, -, -, -, -, hran⟩
        · exact hend
        · exact (ran_throw hran).1
      rw [hend]
      exact .last hchecked horigin answer
  | succ left ih =>
    rcases fetchOnce_ran h with rfl | ⟨horigin, answer, rest, rfl, rfl | ⟨response, location, rfl, hlow, hhigh, hlocation, hran⟩⟩
    · rw [List.append_nil]
      exact .stop (fetches_checked hchecked)
    · exact .last hchecked horigin answer
    · have hlast : rest = [] → Trip newUrlFrom config.allowLocalhost (bearer credential) origin (left + 1) url
          (found ++ ⟨.fetch ⟨url, bearer credential, url.hostname, addresses⟩, .ok response⟩ :: rest) := by
        intro hend
        rw [hend]
        exact .last hchecked horigin _
      cases hnext : newUrlFrom location url with
      | none =>
        rw [hnext] at hran
        exact hlast (ran_throw hran).1
      | some next =>
        rw [hnext] at hran
        dsimp only at hran
        by_cases hsame : next.origin ≠ url.origin
        · rw [if_pos hsame] at hran
          exact hlast (ran_throw hran).1
        rw [if_neg hsame] at hran
        have hredirect : Redirects newUrlFrom ⟨url, bearer credential, url.hostname, addresses⟩ (.ok response) next :=
          ⟨response, location, rfl, hlow, hhigh, hlocation, hnext, not_not.mp hsame⟩
        refine .hop hchecked horigin hredirect ?_
        rcases Prog.ran_bind.mp hran with ⟨e, hdestination, -⟩ | ⟨addresses', before, after, rfl, hdestination, hrest⟩
        · exact .stop (destination_ran hdestination).1
        · exact ih ((destination_ran hdestination).2 addresses' rfl) hrest

theorem safeFetch_trip {newUrl : String → Option Url} {input : String} {url : Url} (hurl : newUrl input = some url)
    {events : Events} (h : (safeFetch newUrl newUrlFrom config credential input).Ran events r) :
    Trip newUrlFrom config.allowLocalhost (bearer credential) url.origin maxRedirects url events := by
  unfold safeFetch at h
  rw [hurl] at h
  rcases Prog.ran_bind.mp h with ⟨e, hdestination, -⟩ | ⟨addresses, before, after, rfl, hdestination, hrest⟩
  · exact .stop (destination_ran hdestination).1
  · exact safeFetchFrom_trip ((destination_ran hdestination).2 addresses rfl) hrest

/-! ### What holds of a trip -/

theorem fetches_fetch {found rest : Events} (h : fetches found = []) :
    fetches (found ++ ⟨.fetch dispatch, answer⟩ :: rest) = (dispatch, answer) :: fetches rest := by
  rw [fetches_append, h]
  rfl

variable {left : ℕ} {url : Url} {events : Events}

section

variable (h : Trip newUrlFrom allowLocalhost authorization origin left url events)

include h

theorem Trip.same_origin : ∀ f ∈ fetches events, f.1.url.origin = origin ∧ f.1.authorization = authorization := by
  induction h with
  | stop h =>
    rw [h]
    intro f hf
    cases hf
  | last hchecked horigin answer =>
    rw [fetches_fetch (fetches_checked hchecked)]
    exact List.forall_mem_singleton.mpr ⟨horigin, rfl⟩
  | hop hchecked horigin hredirect h ih =>
    rw [fetches_fetch (fetches_checked hchecked)]
    exact List.forall_mem_cons.mpr ⟨⟨horigin, rfl⟩, ih⟩

theorem Trip.first : ∀ f ∈ (fetches events).head?, f.1.url = url := by
  cases h with
  | stop h =>
    rw [h]
    intro f hf
    cases hf
  | last hchecked horigin answer =>
    rw [fetches_fetch (fetches_checked hchecked)]
    intro f hf
    rw [← Option.some.inj hf]
  | hop hchecked horigin hredirect h =>
    rw [fetches_fetch (fetches_checked hchecked)]
    intro f hf
    rw [← Option.some.inj hf]

theorem Trip.redirected : (fetches events).IsChain fun a b => Redirects newUrlFrom a.1 a.2 b.1.url := by
  induction h with
  | stop h =>
    rw [h]
    exact .nil
  | last hchecked horigin answer =>
    rw [fetches_fetch (fetches_checked hchecked)]
    exact .singleton _
  | hop hchecked horigin hredirect h ih =>
    rw [fetches_fetch (fetches_checked hchecked), List.isChain_cons]
    refine ⟨fun f hf => ?_, ih⟩
    rw [h.first f hf]
    exact hredirect

theorem Trip.bounded : (fetches events).length ≤ left + 1 := by
  induction h with
  | stop h =>
    rw [h]
    exact Nat.zero_le _
  | last hchecked horigin answer =>
    rw [fetches_fetch (fetches_checked hchecked), List.length_cons]
    exact Nat.succ_le_succ (Nat.zero_le _)
  | hop hchecked horigin hredirect h ih =>
    rw [fetches_fetch (fetches_checked hchecked), List.length_cons]
    exact Nat.succ_le_succ ih

/-- Every fetch goes to addresses that were checked just before it. -/
theorem Trip.checked {before after : Events}
    (hsplit : events = before ++ ⟨.fetch dispatch, answer⟩ :: after) : dispatch.hostname = dispatch.url.hostname ∧
      ∃ earlier found, before = earlier ++ found ∧ Checked allowLocalhost dispatch.url dispatch.addresses found := by
  have hmem : ∀ {before after : Events}, (dispatch, answer) ∈ fetches (before ++ ⟨.fetch dispatch, answer⟩ :: after) := by
    intro before after
    rw [fetches_append]
    exact List.mem_append_right _ (List.mem_cons_self ..)
  -- the split is within the check, at its fetch, or after it
  have hplace : ∀ {found rest : Events} {d : Dispatch} {a : Except (Option McpFailure) Response} {before after : Events},
      fetches found = [] → found ++ ⟨.fetch d, a⟩ :: rest = before ++ ⟨.fetch dispatch, answer⟩ :: after →
      (before = found ∧ dispatch = d) ∨
        ∃ before', before = found ++ ⟨.fetch d, a⟩ :: before' ∧ rest = before' ++ ⟨.fetch dispatch, answer⟩ :: after := by
    intro found rest d a before after hfound heq
    rcases List.append_eq_append_iff.mp heq with ⟨more, hbefore, hrest⟩ | ⟨more, hfront, hrest⟩
    · cases more with
      | nil =>
        rw [List.append_nil] at hbefore
        have hhead := (List.cons.inj hrest).1
        exact .inl ⟨hbefore, (Request.fetch.inj (congrArg Sigma.fst hhead)).symm⟩
      | cons x more =>
        obtain ⟨rfl, hrest'⟩ := List.cons.inj hrest
        exact .inr ⟨more, hbefore, hrest'⟩
    · cases more with
      | nil =>
        rw [List.append_nil] at hfront
        have hhead := (List.cons.inj hrest).1
        exact .inl ⟨hfront.symm, Request.fetch.inj (congrArg Sigma.fst hhead)⟩
      | cons x more =>
        obtain ⟨rfl, -⟩ := List.cons.inj hrest
        have hnone : (dispatch, answer) ∈ fetches found := by
          rw [hfront]
          exact hmem
        rw [hfound] at hnone
        cases hnone
  induction h generalizing before with
  | stop h =>
    have hnone : (dispatch, answer) ∈ fetches (before ++ ⟨.fetch dispatch, answer⟩ :: after) := hmem
    rw [← hsplit, h] at hnone
    cases hnone
  | last hchecked horigin answer =>
    rcases hplace (fetches_checked hchecked) hsplit with ⟨rfl, rfl⟩ | ⟨before', -, hrest⟩
    · exact ⟨rfl, [], _, rfl, hchecked⟩
    · exact absurd hrest.symm (by simp)
  | @hop left url next addresses found rest answer' hchecked horigin hredirect h ih =>
    rcases hplace (fetches_checked hchecked) hsplit with ⟨rfl, rfl⟩ | ⟨before', rfl, hrest⟩
    · exact ⟨rfl, [], _, rfl, hchecked⟩
    · obtain ⟨hname, earlier, found', rfl, hfound⟩ := ih hrest
      refine ⟨hname, found ++ ⟨.fetch ⟨url, authorization, url.hostname, addresses⟩, answer'⟩ :: earlier, found', ?_, hfound⟩
      rw [List.append_assoc]
      rfl

end

theorem pinned_sub {hostname requested : String} {found : List LookupAddress} {family : ℕ} {all : Bool}
    (h : createPinnedLookup hostname addresses requested family all = .ok found) : ∀ a ∈ found, a ∈ addresses := by
  unfold createPinnedLookup at h
  dsimp only at h
  split_ifs at h
  all_goals
    cases h
    intro a ha
  · exact (List.mem_filter.mp ha).1
  · exact (List.mem_filter.mp (List.mem_of_mem_take ha)).1
  · exact ha
  · exact List.mem_of_mem_take ha

end

/-! ### Confinement -/

/-- What holds of the requests that are made of the configured server, at `url`. -/
structure Confined (newUrlFrom : String → Url → Option Url) (config : McpServerConfig) (credential : Option String)
    (url : Url) (events : Events) : Prop where
  /-- The credential goes to the origin of the server only. -/
  origin : ∀ f ∈ fetches events, f.1.url.origin = url.origin ∧ f.1.authorization = bearer credential
  /-- Right before it, the host of a fetch was resolved and checked, or it is this host, and that is allowed. -/
  checked : ∀ before dispatch answer after, events = before ++ ⟨.fetch dispatch, answer⟩ :: after →
    dispatch.hostname = dispatch.url.hostname ∧ ∃ earlier found, before = earlier ++ found ∧
      Checked config.allowLocalhost dispatch.url dispatch.addresses found
  /-- A connection finds these addresses only. -/
  pinned : ∀ f ∈ fetches events, ∀ requested family all found,
    createPinnedLookup f.1.hostname f.1.addresses requested family all = .ok found → ∀ a ∈ found, a ∈ f.1.addresses
  first : ∀ f ∈ (fetches events).head?, f.1.url = url
  redirected : (fetches events).IsChain fun a b => Redirects newUrlFrom a.1 a.2 b.1.url
  bounded : (fetches events).length ≤ maxRedirects + 1

/-- **Whatever the name service and the server answer**, the requests are confined; the transport asks for the URL that
the configuration names. -/
theorem safeFetch_confined {newUrl : String → Option Url} {newUrlFrom : String → Url → Option Url}
    {config : McpServerConfig} {credential : Option String} {url : Url} (hserver : newUrl config.url = some url)
    {input : String} (hasked : newUrl input = newUrl config.url) {events : Events} {r : Except Thrown Response}
    (h : (safeFetch newUrl newUrlFrom config credential input).Ran events r) :
    Confined newUrlFrom config credential url events := by
  have htrip := safeFetch_trip (hasked.trans hserver) h
  exact ⟨htrip.same_origin, fun _ _ _ _ hsplit => htrip.checked hsplit, fun _ _ _ _ _ _ hfound => pinned_sub hfound,
    htrip.first, htrip.redirected, htrip.bounded⟩

def exampleUrl (path : String) : Url := ⟨"https:", "", "", "mcp.example.com", "", path, "", ""⟩

def readUrl (text : String) : Option Url :=
  if text = "https://mcp.example.com/mcp" then some (exampleUrl "/mcp")
  else if text = "http://localhost:3000/mcp" then some ⟨"http:", "", "", "localhost", "3000", "/mcp", "", ""⟩
  else none

/-- A location is a path. -/
def readLocation (location : String) (url : Url) : Option Url := some { url with path := location }

def exampleConfig : McpServerConfig := ⟨"https://mcp.example.com/mcp", false⟩

/-- A request to a path of the server, at an address that was looked up for it. -/
def exampleFetch (path address : String) (response : Response) : Events :=
  [⟨.resolve "mcp.example.com", .ok [⟨address, 4⟩]⟩,
    ⟨.fetch ⟨exampleUrl path, some "Bearer secret", "mcp.example.com", [⟨address, 4⟩]⟩, .ok response⟩]

/-- A request that is redirected, and answered where it is led to. -/
def redirectedFetch : Events :=
  exampleFetch "/mcp" "8.8.8.8" ⟨307, some "/hop"⟩ ++ exampleFetch "/hop" "1.1.1.1" ⟨200, none⟩

theorem destination_example (path : String) {address : String} (h : isForbiddenMcpAddress address = false) :
    (destination (exampleUrl path) false).Ran [⟨.resolve "mcp.example.com", .ok [⟨address, 4⟩]⟩]
      (.ok [⟨address, 4⟩]) := by
  unfold destination
  rw [if_neg (by simp [exampleUrl]), if_neg (by simp), if_neg (by simp [exampleUrl])]
  refine .ask ?_
  show Prog.Ran (if (false || (isForbiddenMcpAddress address || false)) = true then throw notPermitted
    else pure [⟨address, 4⟩] : Task (List LookupAddress)) [] (.ok [⟨address, 4⟩])
  rw [h, if_neg (by decide)]
  exact .done _

theorem redirectedFetch_ran : (safeFetch readUrl readLocation exampleConfig (some "secret")
    "https://mcp.example.com/mcp").Ran redirectedFetch (.ok ⟨200, none⟩) := by
  have hread : readUrl "https://mcp.example.com/mcp" = some (exampleUrl "/mcp") := if_pos rfl
  unfold safeFetch
  rw [hread]
  refine Prog.ran_bind.mpr (.inr ⟨_, redirectedFetch.take 1, redirectedFetch.drop 1, rfl,
    destination_example "/mcp" (by decide +kernel), ?_⟩)
  show (fetchOnce _ _ _ _ _).Ran _ _
  unfold fetchOnce
  rw [if_neg (not_not.mpr rfl)]
  refine .ask ?_
  show (Prog.bind (destination (exampleUrl "/hop") false) fun addresses => safeFetchFrom readLocation exampleConfig
    (some "secret") (exampleUrl "/mcp").origin 1 (exampleUrl "/hop") addresses).Ran _ _
  refine Prog.ran_bind.mpr (.inr ⟨_, redirectedFetch.drop 2 |>.take 1, redirectedFetch.drop 3, rfl,
    destination_example "/hop" (by decide +kernel), ?_⟩)
  have hsame : (exampleUrl "/hop").origin = (exampleUrl "/mcp").origin := rfl
  show (fetchOnce _ _ _ _ _).Ran _ _
  unfold fetchOnce
  rw [if_neg (not_not.mpr hsame)]
  exact .ask (.done _)

theorem safeFetch_confined_redirected :
    Confined readLocation exampleConfig (some "secret") (exampleUrl "/mcp") redirectedFetch ∧
      (fetches redirectedFetch).length = 2 := by
  have hserver : readUrl exampleConfig.url = some (exampleUrl "/mcp") := if_pos rfl
  exact ⟨safeFetch_confined hserver rfl redirectedFetch_ran, rfl⟩

/-- Where it is allowed, a request goes to this host without a check, at an address that would not pass it. -/
theorem localhost_unchecked : ∃ events r,
    (safeFetch readUrl (fun _ _ => none) ⟨"http://localhost:3000/mcp", true⟩ (some "secret")
      "http://localhost:3000/mcp").Ran events r ∧
      ∃ f ∈ fetches events, f.1.url.hostname = "localhost" ∧ createPinnedLookup f.1.hostname f.1.addresses "localhost" 0 true =
        .ok [⟨"127.0.0.1", 4⟩] ∧ isForbiddenMcpAddress "127.0.0.1" = true := by
  refine ⟨[⟨.fetch ⟨⟨"http:", "", "", "localhost", "3000", "/mcp", "", ""⟩, some "Bearer secret", "localhost",
    [⟨"127.0.0.1", 4⟩]⟩, .ok ⟨200, none⟩⟩], .ok ⟨200, none⟩, ?_, _, List.mem_cons_self .., rfl, rfl, by decide +kernel⟩
  have hread : readUrl "http://localhost:3000/mcp" = some ⟨"http:", "", "", "localhost", "3000", "/mcp", "", ""⟩ := by
    decide +kernel
  unfold safeFetch
  rw [hread]
  refine Prog.ran_bind.mpr (.inr ⟨[⟨"127.0.0.1", 4⟩], [], _, rfl, ?_, ?_⟩)
  · unfold destination
    rw [if_neg (by decide +kernel), if_pos (by decide +kernel)]
    exact .done _
  · show (fetchOnce _ _ _ _ _).Ran _ _
    unfold fetchOnce
    rw [if_neg (not_not.mpr rfl)]
    exact .ask (.done _)

end ADT.McpFetch
