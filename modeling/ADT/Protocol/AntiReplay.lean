import Mathlib.Tactic

/-!
# Protocol.AntiReplay — `authenticate` of the ADT Runtime

`authenticate` and `ReplayCache` of `adt-runtime/src/protocol.ts`.  A request is signed with its timestamp and a nonce;
the Runtime takes it while the timestamp is within a window around its clock, and remembers the nonce for as long as
that window from then on.  A request that is taken after its own timestamp, by a cache that drops no nonce before its
time, is not taken again (`accepted_once`).
-/

namespace ADT.Protocol

def protocolVersion : String := "adt-runtime-v1"
def authWindowMs : ℕ := 5 * 60000
def maxNonces : ℕ := 10000

/-! ### The nonces that are remembered -/

/-- `values`: the nonces in the order in which they were accepted, each with the time at which it expires. -/
structure ReplayCache where
  max : ℕ
  windowMs : ℕ
  values : List (String × ℕ)

namespace ReplayCache

variable (c : ReplayCache)

/-- `new ReplayCache()` -/
def fresh : ReplayCache := ⟨maxNonces, authWindowMs, []⟩

/-- The nonces that have not expired. -/
def unexpired (now : ℕ) : List (String × ℕ) := c.values.filter fun v => now < v.2

def has (nonce : String) (values : List (String × ℕ)) : Bool := values.any (·.1 == nonce)

/-- The oldest nonces go until there is room for another one. -/
def evict (max : ℕ) : List (String × ℕ) → List (String × ℕ)
  | [] => []
  | v :: rest => if max ≤ rest.length + 1 then evict max rest else v :: rest

def accept (nonce : String) (now : ℕ) : Bool × ReplayCache :=
  let values := c.unexpired now
  if has nonce values then (false, { c with values })
  else (true, { c with values := evict c.max values ++ [(nonce, now + c.windowMs)] })

variable {c}

theorem evict_of_lt {max : ℕ} {values : List (String × ℕ)} (h : values.length < max) : evict max values = values := by
  cases values with
  | nil => rfl
  | cons v rest =>
    rw [List.length_cons] at h
    rw [evict, if_neg (by omega)]

theorem mem_unexpired {v : String × ℕ} {now : ℕ} : v ∈ c.unexpired now ↔ v ∈ c.values ∧ now < v.2 := by
  simp only [unexpired, List.mem_filter, decide_eq_true_eq]

theorem has_of_mem {nonce : String} {expires : ℕ} {values : List (String × ℕ)} (h : (nonce, expires) ∈ values) :
    has nonce values = true :=
  List.any_eq_true.2 ⟨_, h, by simp⟩

theorem accept_cases (c : ReplayCache) (nonce : String) (now : ℕ) :
    (has nonce (c.unexpired now) = true ∧ c.accept nonce now = (false, { c with values := c.unexpired now })) ∨
    (has nonce (c.unexpired now) = false ∧ c.accept nonce now =
      (true, { c with values := evict c.max (c.unexpired now) ++ [(nonce, now + c.windowMs)] })) := by
  by_cases h : has nonce (c.unexpired now) = true
  · exact .inl ⟨h, by rw [accept, if_pos h]⟩
  · exact .inr ⟨by simpa using h, by rw [accept, if_neg h]⟩

end ReplayCache

/-! ### Signed requests -/

/-- The functions of `node:crypto`, their results in base64url. -/
structure Crypto where
  sha256 : List UInt8 → String
  hmac : String → String → String

/-- A header as Node gives it; `none` stands for `undefined`. -/
inductive HeaderValue
  | text (s : String)
  | list (values : List String)

structure Incoming where
  headers : String → Option HeaderValue
  method : String
  path : String
  body : List UInt8

namespace Incoming

variable (r : Incoming)

def get (name : String) : String :=
  match r.headers name with
  | some (.text s) => s
  | _ => ""

def version : String := r.get "x-adt-protocol"
def timestamp : String := r.get "x-adt-timestamp"
def nonce : String := r.get "x-adt-nonce"
def digest : String := r.get "x-adt-content-sha256"
def provided : String := r.get "x-adt-signature"

/-- What makes two requests the same signed request. -/
def signed : String × String × List UInt8 × String := (r.timestamp, r.nonce, r.body, r.provided)

end Incoming

/-- `^adt-runtime-v\d{1,3}$` -/
def isVersion (s : String) : Bool :=
  let chars := s.toList
  let digits := chars.drop 13
  chars.take 13 == "adt-runtime-v".toList && !digits.isEmpty && digits.length ≤ 3 && digits.all Char.isDigit

/-- `^\d{13}$` -/
def isTimestamp (s : String) : Bool :=
  s.toList.length == 13 && s.toList.all Char.isDigit

/-- `^[A-Za-z0-9_-]{16,128}$` -/
def isNonce (s : String) : Bool :=
  16 ≤ s.toList.length && s.toList.length ≤ 128 && s.toList.all fun c => c.isAlphanum || c == '_' || c == '-'

/-- `Number(timestamp)`, of digits. -/
def number (s : String) : ℕ :=
  s.toList.foldl (fun n c => 10 * n + (c.toNat - '0'.toNat)) 0

def canonical (method path timestamp nonce digest version : String) : String :=
  "\n".intercalate [version, method.toUpper, path, timestamp, nonce, digest]

section Authenticate

variable (K : Crypto) (secret : String)

def signature (method path timestamp nonce digest version : String) : String :=
  K.hmac secret (canonical method path timestamp nonce digest version)

/-- The checks of `authenticate` before the nonce is looked up. -/
def genuine (r : Incoming) (now : ℕ) : Bool :=
  isVersion r.version && isTimestamp r.timestamp && isNonce r.nonce && !r.digest.isEmpty && !r.provided.isEmpty &&
    now ≤ number r.timestamp + authWindowMs && number r.timestamp ≤ now + authWindowMs &&
    r.digest == K.sha256 r.body &&
    signature K secret r.method r.path r.timestamp r.nonce r.digest r.version == r.provided

def authenticate (r : Incoming) (replays : ReplayCache) (now : ℕ) : Bool × ReplayCache :=
  if genuine K secret r now then replays.accept r.nonce now else (false, replays)

end Authenticate

/-! ### The requests of a Runtime -/

/-- A request, and the clock when it is authenticated. -/
structure Arrival where
  request : Incoming
  now : ℕ

/-- The cache, and the arrivals that were accepted, the latest first. -/
structure Runtime where
  replays : ReplayCache
  accepted : List Arrival

namespace Runtime

variable (K : Crypto) (secret : String)

def init : Runtime := ⟨.fresh, []⟩

def step (rt : Runtime) (a : Arrival) : Runtime :=
  let r := authenticate K secret a.request rt.replays a.now
  ⟨r.2, if r.1 then a :: rt.accepted else rt.accepted⟩

def run (rt : Runtime) (arrivals : List Arrival) : Runtime :=
  arrivals.foldl (step K secret) rt

def Clocked (arrivals : List Arrival) : Prop := arrivals.Pairwise (·.now ≤ ·.now)

/-- No signed request was accepted twice. -/
def AcceptsOnce (rt : Runtime) : Prop := (rt.accepted.map fun a => a.request.signed).Nodup

instance (rt : Runtime) : Decidable rt.AcceptsOnce := inferInstanceAs (Decidable (List.Nodup _))

/-- A request that is about to be accepted is older than the clock, and there is room to remember it. -/
def Timely (rt : Runtime) (a : Arrival) : Prop :=
  genuine K secret a.request a.now = true →
    ReplayCache.has a.request.nonce (rt.replays.unexpired a.now) = false →
    number a.request.timestamp < a.now ∧ (rt.replays.unexpired a.now).length < rt.replays.max

instance (rt : Runtime) (a : Arrival) : Decidable (Timely K secret rt a) :=
  inferInstanceAs (Decidable (_ → _ → _))

/-- Every arrival is timely when it comes. -/
def Timed : Runtime → List Arrival → Prop
  | _, [] => True
  | rt, a :: rest => Timely K secret rt a ∧ Timed (rt.step K secret a) rest

/-- Whatever was accepted is remembered, for as long as its timestamp may pass. -/
structure Guarded (clock : ℕ) (rt : Runtime) : Prop where
  window : rt.replays.windowMs = authWindowMs
  past : ∀ a ∈ rt.accepted, number a.request.timestamp < a.now
  remembered : ∀ a ∈ rt.accepted, clock < a.now + authWindowMs →
    (a.request.nonce, a.now + authWindowMs) ∈ rt.replays.values
  once : rt.AcceptsOnce

variable {K secret} {rt : Runtime} {clock : ℕ}

theorem guarded_init : Guarded clock init where
  window := rfl
  past := fun a ha => absurd ha (by simp [init])
  remembered := fun a ha => absurd ha (by simp [init])
  once := List.nodup_nil

theorem step_cases (K : Crypto) (secret : String) (rt : Runtime) (a : Arrival) :
    (genuine K secret a.request a.now = false ∧ rt.step K secret a = rt) ∨
    (genuine K secret a.request a.now = true ∧
      rt.step K secret a = ⟨{ rt.replays with values := rt.replays.unexpired a.now }, rt.accepted⟩) ∨
    (genuine K secret a.request a.now = true ∧
      ReplayCache.has a.request.nonce (rt.replays.unexpired a.now) = false ∧
      rt.step K secret a = ⟨{ rt.replays with
        values := ReplayCache.evict rt.replays.max (rt.replays.unexpired a.now) ++
          [(a.request.nonce, a.now + rt.replays.windowMs)] }, a :: rt.accepted⟩) := by
  by_cases hg : genuine K secret a.request a.now = true
  · rcases ReplayCache.accept_cases rt.replays a.request.nonce a.now with ⟨_, h⟩ | ⟨hnew, h⟩
    · refine .inr (.inl ⟨hg, ?_⟩)
      simp only [step, authenticate, if_pos hg, h, Bool.false_eq_true, if_false]
    · refine .inr (.inr ⟨hg, hnew, ?_⟩)
      simp only [step, authenticate, if_pos hg, h, if_true]
  · refine .inl ⟨by simpa using hg, ?_⟩
    simp only [step, authenticate, if_neg hg, Bool.false_eq_true, if_false]

theorem Guarded.new (h : Guarded clock rt) {a : Arrival} (hclock : clock ≤ a.now)
    (hg : genuine K secret a.request a.now = true)
    (hnew : ReplayCache.has a.request.nonce (rt.replays.unexpired a.now) = false) :
    a.request.signed ∉ rt.accepted.map fun b => b.request.signed := by
  intro hmem
  obtain ⟨b, hb, hsame⟩ := List.mem_map.1 hmem
  have hts : b.request.timestamp = a.request.timestamp := congrArg (·.1) hsame
  have hnonce : b.request.nonce = a.request.nonce := congrArg (·.2.1) hsame
  have hpast := h.past b hb
  have hwindow : a.now ≤ number a.request.timestamp + authWindowMs := by
    simp only [genuine, Bool.and_eq_true, decide_eq_true_eq] at hg
    exact hg.1.1.1.2
  -- the timestamp still passes, so the nonce has not expired
  rw [hts] at hpast
  have hlive : a.now < b.now + authWindowMs := by omega
  have hvalue := h.remembered b hb (by omega)
  have hhas := ReplayCache.has_of_mem (ReplayCache.mem_unexpired.2 ⟨hvalue, hlive⟩)
  rw [hnonce, hnew] at hhas
  cases hhas

/-- **One arrival.** -/
theorem guarded_step (h : Guarded clock rt) {a : Arrival} (hclock : clock ≤ a.now) (ht : Timely K secret rt a) :
    Guarded a.now (rt.step K secret a) := by
  have hkeep : ∀ b ∈ rt.accepted, a.now < b.now + authWindowMs →
      (b.request.nonce, b.now + authWindowMs) ∈ rt.replays.unexpired a.now := fun b hb hlive =>
    ReplayCache.mem_unexpired.2 ⟨h.remembered b hb (by omega), hlive⟩
  rcases step_cases K secret rt a with ⟨_, hs⟩ | ⟨_, hs⟩ | ⟨hg, hnew, hs⟩
  · rw [hs]
    exact ⟨h.window, h.past, fun b hb hlive => h.remembered b hb (by omega), h.once⟩
  · rw [hs]
    exact ⟨h.window, h.past, hkeep, h.once⟩
  · obtain ⟨hpast, hroom⟩ := ht hg hnew
    rw [hs, ReplayCache.evict_of_lt hroom]
    refine ⟨h.window, fun b hb => ?_, fun b hb hlive => ?_, List.nodup_cons.2 ⟨h.new hclock hg hnew, h.once⟩⟩
    · rcases List.mem_cons.1 hb with rfl | hb
      · exact hpast
      · exact h.past b hb
    · rcases List.mem_cons.1 hb with rfl | hb
      · exact List.mem_append_right _ (by simp [h.window])
      · exact List.mem_append_left _ (hkeep b hb hlive)

theorem guarded_run (h : Guarded clock rt) {arrivals : List Arrival} (hfirst : ∀ a ∈ arrivals, clock ≤ a.now)
    (hclock : Clocked arrivals) (ht : Timed K secret rt arrivals) : (rt.run K secret arrivals).AcceptsOnce := by
  induction arrivals generalizing rt clock with
  | nil => exact h.once
  | cons a rest ih =>
    obtain ⟨hnow, hrest⟩ := List.pairwise_cons.1 hclock
    exact ih (guarded_step h (hfirst a (List.mem_cons_self ..)) ht.1) hnow hrest ht.2

/-- **Anti-replay.** Where every request is older than the clock that takes it and finds room to be remembered, none is
accepted twice. -/
theorem accepted_once (K : Crypto) (secret : String) (arrivals : List Arrival) (hclock : Clocked arrivals)
    (ht : Timed K secret init arrivals) : (init.run K secret arrivals).AcceptsOnce :=
  guarded_run guarded_init (fun a _ => Nat.zero_le a.now) hclock ht

/-- A digest and a code that can be evaluated. -/
def sampleCrypto : Crypto := ⟨fun body => toString body.length, fun secret message => secret ++ message⟩

/-- A request signed with the secret "key" for the time 1700000000000. -/
def sampleRequest : Incoming where
  headers name :=
    if name = "x-adt-protocol" then some (.text protocolVersion)
    else if name = "x-adt-timestamp" then some (.text "1700000000000")
    else if name = "x-adt-nonce" then some (.text "nonce-0123456789")
    else if name = "x-adt-content-sha256" then some (.text "0")
    else if name = "x-adt-signature" then some (.text (signature sampleCrypto "key" "POST" "/v1/executions/provider"
      "1700000000000" "nonce-0123456789" "0" protocolVersion))
    else none
  method := "POST"
  path := "/v1/executions/provider"
  body := []

/-- The request arrives a second late, and again four minutes later. -/
def lateReplay : List Arrival := [⟨sampleRequest, 1700000001000⟩, ⟨sampleRequest, 1700000241000⟩]

theorem lateReplay_refused : (init.run sampleCrypto "key" lateReplay).accepted.length = 1 ∧
    (init.run sampleCrypto "key" lateReplay).AcceptsOnce :=
  ⟨by decide +kernel, accepted_once sampleCrypto "key" lateReplay
    (by simp [Clocked, lateReplay]) ⟨by decide +kernel, by decide +kernel, trivial⟩⟩

/-- The sender's clock is a minute ahead; the request arrives again when its nonce has just expired. -/
def earlyReplay : List Arrival := [⟨sampleRequest, 1699999940000⟩, ⟨sampleRequest, 1700000240000⟩]

theorem earlyReplay_accepted : ¬∀ arrivals, Clocked arrivals → (init.run sampleCrypto "key" arrivals).AcceptsOnce := by
  intro h
  have hclock : Clocked earlyReplay := by simp [Clocked, earlyReplay]
  have htwice : ¬(init.run sampleCrypto "key" earlyReplay).AcceptsOnce := by decide +kernel
  exact htwice (h earlyReplay hclock)

end Runtime

end ADT.Protocol
