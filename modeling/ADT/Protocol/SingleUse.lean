import ADT.Protocol.AntiReplay
import ADT.Lib.Base64Url

/-!
# Protocol.SingleUse — the signed requests of the executor and of the repository manager

The authentication of `createExecutorServer` (`codex-runner/src/executor.ts`) and of `createRepositoryManagerServer`
(`codex-runner/src/repository-manager.ts`).  Both take a request while its timestamp is within a window on either side
of their clock, and keep its nonce for one window from then on.  A timestamp that is ahead of the clock passes for
longer than that, so such a request may be taken again (`single_use`).
-/

namespace ADT.Protocol

/-- `createHash("sha256")`, in hexadecimal, and `verify` with the public key of the controller. -/
structure Verifier where
  sha256 : List UInt8 → String
  verify : String → List UInt8 → Bool

/-- The bounds of a server that takes signed requests. -/
structure SignedServer where
  maxBody : ℕ
  windowMs : ℕ
  signatureLimit : Option ℕ

def createExecutorServer : SignedServer := ⟨1100000, 30000, some 128⟩
def createRepositoryManagerServer : SignedServer := ⟨16384, 30000, none⟩

/-- What makes two requests the same signed request of a controller. -/
structure SignedRequest where
  method : String
  path : String
  timestamp : Option String
  nonce : Option String
  body : List UInt8
  signature : Option String
  deriving DecidableEq

namespace Incoming

def text (r : Incoming) (name : String) : Option String :=
  match r.headers name with
  | some (.text s) => some s
  | _ => none

def signedRequest (r : Incoming) : SignedRequest where
  method := r.method
  path := r.path
  timestamp := r.text "x-codex-executor-timestamp"
  nonce := r.text "x-codex-executor-nonce"
  body := r.body
  signature := r.text "x-codex-executor-signature"

end Incoming

/-- `^[a-f0-9]{48}$` -/
def isHexNonce (s : String) : Bool :=
  s.toList.length == 48 && s.toList.all fun c => ('a' ≤ c && c ≤ 'f') || c.isDigit

/-- `Buffer.from(signature, "base64url")`: what is not a digit is left out, and nothing is read behind a sign of
padding. -/
def base64Bytes (s : String) : List UInt8 :=
  Base64Url.ungroup ((s.toList.takeWhile (· != '=')).filterMap Base64Url.value)

/-- A reply before any route is looked at. -/
inductive Gate
  | health
  | refused (code : String) (status : ℕ)
  | passed
  deriving DecidableEq

namespace SignedServer

variable (S : SignedServer) (V : Verifier)

def canonicalRequest (method path timestamp nonce : String) (raw : List UInt8) : String :=
  "\n".intercalate ["adt-executor-v1", method, path, timestamp, nonce, V.sha256 raw]

/-- The nonces that are kept when the clock shows `now`. -/
def sweep (seen : List (String × ℕ)) (now : ℕ) : List (String × ℕ) := seen.filter fun v => !(v.2 < now)

/-- The checks of a request with these headers, but for its nonce. -/
def genuine (r : Incoming) (timestamp nonce signature : String) (now : ℕ) : Bool :=
  isTimestamp timestamp && now ≤ number timestamp + S.windowMs && number timestamp ≤ now + S.windowMs &&
    isHexNonce nonce && S.signatureLimit.all (signature.toList.length ≤ ·) && (base64Bytes signature).length == 64 &&
    V.verify (canonicalRequest V r.method r.path timestamp nonce r.body) (base64Bytes signature)

/-- The start of the request listener: its reply, and the nonces afterwards. -/
def authenticate (r : Incoming) (seen : List (String × ℕ)) (now : ℕ) : Gate × List (String × ℕ) :=
  if r.method = "GET" ∧ r.path = "/health" then (.health, seen)
  else if S.maxBody < r.body.length then (.refused "request_too_large" 413, seen)
  else
    match r.text "x-codex-executor-timestamp", r.text "x-codex-executor-nonce", r.text "x-codex-executor-signature" with
    | some timestamp, some nonce, some signature =>
      if S.genuine V r timestamp nonce signature now && !ReplayCache.has nonce (sweep seen now) then
        (.passed, sweep seen now ++ [(nonce, now + S.windowMs)])
      else (.refused "unauthorized" 401, sweep seen now)
    | _, _, _ => (.refused "unauthorized" 401, sweep seen now)

variable {S V}

theorem mem_sweep {v : String × ℕ} {seen : List (String × ℕ)} {now : ℕ} : v ∈ sweep seen now ↔ v ∈ seen ∧ now ≤ v.2 := by
  simp only [sweep, List.mem_filter, Bool.not_eq_true', decide_eq_false_iff_not, not_lt]

theorem genuine_window {r : Incoming} {timestamp nonce signature : String} {now : ℕ}
    (h : S.genuine V r timestamp nonce signature now = true) : now ≤ number timestamp + S.windowMs := by
  simp only [genuine, Bool.and_eq_true, decide_eq_true_eq] at h
  exact h.1.1.1.1.1.2

theorem genuine_later {r : Incoming} {timestamp nonce signature : String} {now later : ℕ}
    (h : S.genuine V r timestamp nonce signature now = true) (hlate : now ≤ later)
    (hopen : later ≤ number timestamp + S.windowMs) : S.genuine V r timestamp nonce signature later = true := by
  simp only [genuine, Bool.and_eq_true, decide_eq_true_eq] at h ⊢
  obtain ⟨⟨⟨⟨⟨⟨hts, _⟩, hahead⟩, hnonce⟩, hlimit⟩, hbytes⟩, hverify⟩ := h
  exact ⟨⟨⟨⟨⟨⟨hts, hopen⟩, by omega⟩, hnonce⟩, hlimit⟩, hbytes⟩, hverify⟩

/-- What the authentication of a request does: it leaves the nonces, it drops those that expired, or it takes the
request and keeps its nonce as well. -/
theorem authenticate_cases (S : SignedServer) (V : Verifier) (r : Incoming) (seen : List (String × ℕ)) (now : ℕ) :
    ((S.authenticate V r seen now).1 ≠ .passed ∧
      ((S.authenticate V r seen now).2 = seen ∨ (S.authenticate V r seen now).2 = sweep seen now)) ∨
    ∃ timestamp nonce signature, r.text "x-codex-executor-timestamp" = some timestamp ∧
      r.text "x-codex-executor-nonce" = some nonce ∧ r.text "x-codex-executor-signature" = some signature ∧
      S.genuine V r timestamp nonce signature now = true ∧ ReplayCache.has nonce (sweep seen now) = false ∧
      S.authenticate V r seen now = (.passed, sweep seen now ++ [(nonce, now + S.windowMs)]) := by
  unfold authenticate
  by_cases hhealth : r.method = "GET" ∧ r.path = "/health"
  · rw [if_pos hhealth]
    exact .inl ⟨by simp, .inl rfl⟩
  rw [if_neg hhealth]
  by_cases hbody : S.maxBody < r.body.length
  · rw [if_pos hbody]
    exact .inl ⟨by simp, .inl rfl⟩
  rw [if_neg hbody]
  split
  · rename_i timestamp nonce signature hts hnonce hsig
    by_cases hpass : (S.genuine V r timestamp nonce signature now && !ReplayCache.has nonce (sweep seen now)) = true
    · rw [if_pos hpass]
      simp only [Bool.and_eq_true, Bool.not_eq_true'] at hpass
      exact .inr ⟨timestamp, nonce, signature, hts, hnonce, hsig, hpass.1, hpass.2, rfl⟩
    · rw [if_neg hpass]
      exact .inl ⟨by simp, .inr rfl⟩
  · exact .inl ⟨by simp, .inr rfl⟩

end SignedServer

/-! ### The requests of a server -/

/-- The nonces that are kept, and the arrivals that were taken, the latest first. -/
structure Listener where
  seen : List (String × ℕ)
  accepted : List Arrival

namespace Listener

variable (S : SignedServer) (V : Verifier)

def init : Listener := ⟨[], []⟩

def step (l : Listener) (a : Arrival) : Listener :=
  let r := S.authenticate V a.request l.seen a.now
  ⟨r.2, if r.1 = .passed then a :: l.accepted else l.accepted⟩

def run (l : Listener) (arrivals : List Arrival) : Listener :=
  arrivals.foldl (step S V) l

/-- No signed request was accepted twice. -/
def AcceptsOnce (l : Listener) : Prop := (l.accepted.map fun a => a.request.signedRequest).Nodup

instance (l : Listener) : Decidable l.AcceptsOnce := inferInstanceAs (Decidable (List.Nodup _))

/-- The timestamp of a request is not ahead of the clock. -/
def Behind (a : Arrival) : Prop :=
  ∀ timestamp, a.request.text "x-codex-executor-timestamp" = some timestamp → number timestamp ≤ a.now

/-- No arrival that is accepted has a timestamp ahead of the clock. -/
def Timed : Listener → List Arrival → Prop
  | _, [] => True
  | l, a :: rest => ((S.authenticate V a.request l.seen a.now).1 = .passed → Behind a) ∧ Timed (l.step S V a) rest

/-- Whatever was accepted is kept, for as long as its timestamp may pass. -/
structure Kept (clock : ℕ) (l : Listener) : Prop where
  behind : ∀ a ∈ l.accepted, Behind a
  remembered : ∀ a ∈ l.accepted, clock ≤ a.now + S.windowMs →
    ∃ nonce, a.request.text "x-codex-executor-nonce" = some nonce ∧ (nonce, a.now + S.windowMs) ∈ l.seen
  once : l.AcceptsOnce

variable {S V} {l : Listener} {clock : ℕ}

theorem kept_init : Kept S clock init where
  behind := fun a ha => absurd ha (by simp [init])
  remembered := fun a ha => absurd ha (by simp [init])
  once := List.nodup_nil

theorem step_cases (S : SignedServer) (V : Verifier) (l : Listener) (a : Arrival) :
    (∃ seen, (seen = l.seen ∨ seen = SignedServer.sweep l.seen a.now) ∧ l.step S V a = ⟨seen, l.accepted⟩) ∨
    ∃ timestamp nonce signature, a.request.text "x-codex-executor-timestamp" = some timestamp ∧
      a.request.text "x-codex-executor-nonce" = some nonce ∧
      S.genuine V a.request timestamp nonce signature a.now = true ∧
      ReplayCache.has nonce (SignedServer.sweep l.seen a.now) = false ∧
      (S.authenticate V a.request l.seen a.now).1 = .passed ∧
      l.step S V a = ⟨SignedServer.sweep l.seen a.now ++ [(nonce, a.now + S.windowMs)], a :: l.accepted⟩ := by
  rcases SignedServer.authenticate_cases S V a.request l.seen a.now with
    ⟨hrefused, hseen⟩ | ⟨timestamp, nonce, signature, hts, hnonce, _, hg, hnew, hpass⟩
  · refine .inl ⟨_, hseen, ?_⟩
    simp only [step, if_neg hrefused]
  · refine .inr ⟨timestamp, nonce, signature, hts, hnonce, hg, hnew, by rw [hpass], ?_⟩
    simp only [step, hpass, if_true]

theorem Kept.new (h : Kept S clock l) {a : Arrival} (hclock : clock ≤ a.now) {timestamp nonce signature : String}
    (hts : a.request.text "x-codex-executor-timestamp" = some timestamp)
    (hnonce : a.request.text "x-codex-executor-nonce" = some nonce)
    (hg : S.genuine V a.request timestamp nonce signature a.now = true)
    (hnew : ReplayCache.has nonce (SignedServer.sweep l.seen a.now) = false) :
    a.request.signedRequest ∉ l.accepted.map fun b => b.request.signedRequest := by
  intro hmem
  obtain ⟨b, hb, hsame⟩ := List.mem_map.1 hmem
  have htsame : b.request.text "x-codex-executor-timestamp" = a.request.text "x-codex-executor-timestamp" :=
    congrArg SignedRequest.timestamp hsame
  have hnsame : b.request.text "x-codex-executor-nonce" = a.request.text "x-codex-executor-nonce" :=
    congrArg SignedRequest.nonce hsame
  have hbehind : number timestamp ≤ b.now := h.behind b hb timestamp (htsame.trans hts)
  have hwindow : a.now ≤ number timestamp + S.windowMs := SignedServer.genuine_window hg
  -- the timestamp still passes, so the nonce has not expired
  have hlive : a.now ≤ b.now + S.windowMs := by omega
  obtain ⟨kept, hkept, hmemory⟩ := h.remembered b hb (by omega)
  have hkeep : kept = nonce := Option.some.inj ((hkept.symm.trans hnsame).trans hnonce)
  have hhas := ReplayCache.has_of_mem (SignedServer.mem_sweep.2 ⟨hmemory, hlive⟩)
  rw [hkeep, hnew] at hhas
  exact absurd hhas (by simp)

/-- **One arrival.** -/
theorem kept_step (h : Kept S clock l) {a : Arrival} (hclock : clock ≤ a.now)
    (ht : (S.authenticate V a.request l.seen a.now).1 = .passed → Behind a) : Kept S a.now (l.step S V a) := by
  have hkeep : ∀ b ∈ l.accepted, a.now ≤ b.now + S.windowMs →
      ∃ nonce, b.request.text "x-codex-executor-nonce" = some nonce ∧
        (nonce, b.now + S.windowMs) ∈ SignedServer.sweep l.seen a.now := by
    intro b hb hlive
    obtain ⟨nonce, hnonce, hmemory⟩ := h.remembered b hb (by omega)
    exact ⟨nonce, hnonce, SignedServer.mem_sweep.2 ⟨hmemory, hlive⟩⟩
  rcases step_cases S V l a with ⟨seen, hseen, hs⟩ | ⟨timestamp, nonce, signature, hts, hnonce, hg, hnew, hpass, hs⟩
  · rw [hs]
    refine ⟨h.behind, fun b hb hlive => ?_, h.once⟩
    rcases hseen with rfl | rfl
    · exact h.remembered b hb (by omega)
    · exact hkeep b hb hlive
  · rw [hs]
    refine ⟨fun b hb => ?_, fun b hb hlive => ?_, List.nodup_cons.2 ⟨h.new hclock hts hnonce hg hnew, h.once⟩⟩
    · rcases List.mem_cons.1 hb with rfl | hb
      · exact ht hpass
      · exact h.behind b hb
    · rcases List.mem_cons.1 hb with rfl | hb
      · exact ⟨nonce, hnonce, List.mem_append_right _ (List.mem_singleton.2 rfl)⟩
      · obtain ⟨kept, hkept, hmemory⟩ := hkeep b hb hlive
        exact ⟨kept, hkept, List.mem_append_left _ hmemory⟩

theorem kept_run (h : Kept S clock l) {arrivals : List Arrival} (hfirst : ∀ a ∈ arrivals, clock ≤ a.now)
    (hclock : Runtime.Clocked arrivals) (ht : Timed S V l arrivals) : (l.run S V arrivals).AcceptsOnce := by
  induction arrivals generalizing l clock with
  | nil => exact h.once
  | cons a rest ih =>
    obtain ⟨hnow, hrest⟩ := List.pairwise_cons.1 hclock
    exact ih (kept_step h (hfirst a (List.mem_cons_self ..)) ht.1) hnow hrest ht.2

/-- A request that is not behind its time is accepted again once its window has passed. -/
theorem accepted_again {a : Arrival} (hpass : (S.authenticate V a.request init.seen a.now).1 = .passed)
    (hahead : ¬Behind a) : ¬(init.run S V [a, ⟨a.request, a.now + S.windowMs + 1⟩]).AcceptsOnce := by
  rcases SignedServer.authenticate_cases S V a.request init.seen a.now with
    ⟨hrefused, _⟩ | ⟨timestamp, nonce, signature, hts, hnonce, hsig, hg, _, hfirst⟩
  · exact absurd hpass hrefused
  have hlate : a.now < number timestamp := by
    by_contra hle
    refine hahead fun other hother => ?_
    rw [hts] at hother
    rw [← Option.some.inj hother]
    omega
  have hgone : SignedServer.sweep (SignedServer.sweep init.seen a.now ++ [(nonce, a.now + S.windowMs)])
      (a.now + S.windowMs + 1) = [] := by
    simp [SignedServer.sweep, init]
  have hlater := SignedServer.genuine_later hg (Nat.le_succ_of_le (Nat.le_add_right _ _))
    (show a.now + S.windowMs + 1 ≤ number timestamp + S.windowMs by omega)
  have hagain : (S.authenticate V a.request (SignedServer.sweep init.seen a.now ++ [(nonce, a.now + S.windowMs)])
      (a.now + S.windowMs + 1)).1 = .passed := by
    unfold SignedServer.authenticate at hfirst ⊢
    by_cases hhealth : a.request.method = "GET" ∧ a.request.path = "/health"
    · rw [if_pos hhealth] at hfirst
      exact absurd (congrArg Prod.fst hfirst) (by simp)
    rw [if_neg hhealth] at hfirst ⊢
    by_cases hbody : S.maxBody < a.request.body.length
    · rw [if_pos hbody] at hfirst
      exact absurd (congrArg Prod.fst hfirst) (by simp)
    rw [if_neg hbody, hts, hnonce, hsig, hgone]
    simp only [hlater, ReplayCache.has, List.any_nil, Bool.not_false, Bool.and_self, if_true]
  intro honce
  have hnodup : ((((init.step S V a).step S V ⟨a.request, a.now + S.windowMs + 1⟩).accepted).map
    fun b => b.request.signedRequest).Nodup := honce
  have hone : init.step S V a = ⟨SignedServer.sweep init.seen a.now ++ [(nonce, a.now + S.windowMs)], [a]⟩ := by
    simp only [step, hfirst, if_true]
    rfl
  rw [hone] at hnodup
  simp only [step, hagain, if_true, List.map_cons, List.map_nil] at hnodup
  exact (List.nodup_cons.1 hnodup).1 (List.mem_singleton.2 rfl)

/-- **Single use.** Where no accepted request is ahead of the clock that accepts it, neither server accepts a signed
request twice; and one that is ahead of the clock is accepted twice when it comes again. -/
theorem single_use (V : Verifier) : ∀ S ∈ [createExecutorServer, createRepositoryManagerServer],
    (∀ arrivals, Runtime.Clocked arrivals → Timed S V init arrivals → (init.run S V arrivals).AcceptsOnce) ∧
    ∀ a, (S.authenticate V a.request init.seen a.now).1 = .passed →
      ((∀ later, Runtime.Clocked (a :: later) → (∀ b ∈ later, b.request = a.request) →
        (init.run S V (a :: later)).AcceptsOnce) ↔ Behind a) := by
  intro S _
  refine ⟨fun arrivals hclock ht => kept_run kept_init (fun a _ => Nat.zero_le a.now) hclock ht, fun a hpass => ⟨?_, ?_⟩⟩
  · intro honce
    by_contra hahead
    refine accepted_again hpass hahead (honce _ ?_ fun b hb => by rw [List.mem_singleton.1 hb])
    refine List.pairwise_pair.2 ?_
    show a.now ≤ a.now + S.windowMs + 1
    omega
  · intro hbehind later hclock hsame
    have hlate := (List.pairwise_cons.1 hclock).1
    refine kept_run kept_init (fun b _ => Nat.zero_le b.now) hclock ⟨fun _ => hbehind, ?_⟩
    -- the same request at a later clock is behind it as well
    have hall : ∀ b ∈ later, Behind b := fun b hb timestamp hts =>
      le_trans (hbehind timestamp (by rw [← hsame b hb]; exact hts)) (hlate b hb)
    clear hclock hsame hlate
    generalize init.step S V a = l
    induction later generalizing l with
    | nil => trivial
    | cons b rest ih =>
      exact ⟨fun _ => hall b (List.mem_cons_self ..), ih (fun c hc => hall c (List.mem_cons_of_mem _ hc)) _⟩

/-! ### A request to look at -/

/-- A public key that verifies one signature. -/
def sampleVerifier : Verifier where
  sha256 body := toString body.length
  verify message bytes :=
    message == "\n".intercalate ["adt-executor-v1", "POST", "/internal/v1/repositories/status", "1700000000000",
      "0123456789abcdef0123456789abcdef0123456789abcdef", "0"] && bytes == List.replicate 64 0

/-- A request signed for the time 1700000000000. -/
def sampleSigned : Incoming where
  headers name :=
    if name = "x-codex-executor-timestamp" then some (.text "1700000000000")
    else if name = "x-codex-executor-nonce" then some (.text "0123456789abcdef0123456789abcdef0123456789abcdef")
    else if name = "x-codex-executor-signature" then some (.text (String.ofList (List.replicate 86 'A')))
    else none
  method := "POST"
  path := "/internal/v1/repositories/status"
  body := []

/-- The request arrives on time, and again when its nonce has just expired: it is accepted once. -/
theorem single_use_on_time : createRepositoryManagerServer ∈ [createExecutorServer, createRepositoryManagerServer] ∧
    (init.run createRepositoryManagerServer sampleVerifier
      [⟨sampleSigned, 1700000000000⟩, ⟨sampleSigned, 1700000030001⟩]).AcceptsOnce := by
  have hmem : createRepositoryManagerServer ∈ [createExecutorServer, createRepositoryManagerServer] := by simp
  refine ⟨hmem, ((single_use sampleVerifier _ hmem).2 ⟨sampleSigned, 1700000000000⟩ (by decide +kernel)).2 ?_
    [⟨sampleSigned, 1700000030001⟩] (by simp [Runtime.Clocked]) (by simp)⟩
  intro timestamp hts
  have hts : timestamp = "1700000000000" := (Option.some.inj (show some "1700000000000" = some timestamp from hts)).symm
  subst hts
  decide +kernel

/-- The clock of the servers is 20 seconds behind; the request comes again after half a minute. -/
theorem ahead_accepted_twice :
    (¬∀ V arrivals, Runtime.Clocked arrivals → (init.run createExecutorServer V arrivals).AcceptsOnce) ∧
    ¬∀ V arrivals, Runtime.Clocked arrivals → (init.run createRepositoryManagerServer V arrivals).AcceptsOnce := by
  have hclock : Runtime.Clocked [⟨sampleSigned, 1699999980000⟩, ⟨sampleSigned, 1700000010001⟩] := by
    simp [Runtime.Clocked]
  constructor
  · intro h
    have htwice : ¬(init.run createExecutorServer sampleVerifier
        [⟨sampleSigned, 1699999980000⟩, ⟨sampleSigned, 1700000010001⟩]).AcceptsOnce := by decide +kernel
    exact htwice (h sampleVerifier _ hclock)
  · intro h
    have htwice : ¬(init.run createRepositoryManagerServer sampleVerifier
        [⟨sampleSigned, 1699999980000⟩, ⟨sampleSigned, 1700000010001⟩]).AcceptsOnce := by decide +kernel
    exact htwice (h sampleVerifier _ hclock)

end Listener

end ADT.Protocol
