import ADT.Catalogue.Snapshot
import ADT.Lib.Knowing

/-!
# Catalogue.Discipline — what a call knows

A call reads the clock, then the generation, then the pointer, then the branch: what it reads later is at least as recent as
what it read before.  Everything it writes or returns it can vouch for with what it has read.
-/

namespace ADT.Catalogue

open Interleave Artifacts

/-- What a thread may know: a time that has passed; that it launched a flight, and took off with it; the generation it read, or that it could
not; that a generation covers its flight, or that the flight needs none; a revision that was the head after a generation was
written, since a time, or within a flight; that a flight is good enough for its call, and its result; that it began an
invalidation, with which write, and that this took effect. -/
inductive Fact
  | passed (time : ℕ)
  | launched (flight : ℕ)
  | taken (flight : ℕ)
  | read (generation : Option ℕ)
  | unread
  | covers (generation : Option ℕ) (flight : ℕ)
  | exempt (flight : ℕ)
  | after (revision : String) (generation : Option ℕ)
  | since (revision : String) (time : ℕ)
  | within (revision : String) (flight : ℕ)
  | mine (flight : ℕ)
  | got (flight : ℕ) (catalogue : ResolvedCatalogue)
  | opened
  | cutting (ticket : ℕ)
  | cut

def teaches (known : Set Fact) : (q : Request) → Answer q → Set Fact
  | .now, time => {.passed time}
  | .getBaseRevision, .ok revision =>
    {f | f = .after revision none ∨ (∃ g, f = .after revision g ∧ .read g ∈ known) ∨
      (∃ time, f = .since revision time ∧ .passed time ∈ known) ∨
      ∃ flight, f = .within revision flight ∧ .taken flight ∈ known}
  | .get .generation, .ok g => {f | f = .read g ∨ ∃ flight, f = .covers g flight ∧ .taken flight ∈ known}
  | .get .generation, .error () => {.unread}
  | .get .current, .ok (some pointer) =>
    {.after pointer.revision pointer.generation, .since pointer.revision pointer.refreshedAt}
  | .log .staleFallback, _ => {f | ∃ flight, f = .exempt flight ∧ .taken flight ∈ known ∧ .unread ∈ known}
  | .take flight, _ => {.taken flight}
  | .join _ _, .joined flight => {.mine flight}
  | .join _ _, .started flight => {.mine flight, .launched flight}
  | .join _ _, .queued flight _ => {.mine flight, .launched flight}
  | .result flight, some (.ok catalogue) => {.got flight catalogue}
  | .distrust _, _ => {.opened}
  | .putGeneration, ticket => {.cutting ticket}
  | .settled tickets, true => {f | f = .cut ∧ ∃ ticket ∈ tickets, .cutting ticket ∈ known}
  | _, _ => ∅

/-- The thread knows a head within the flight. -/
def Vouched (known : Set Fact) (flight : ℕ) (revision : String) : Prop :=
  .within revision flight ∈ known ∨
    ∃ g, .after revision g ∈ known ∧ (.covers g flight ∈ known ∨ .exempt flight ∈ known)

/-- `load` says that the catalogue is fresh or refreshed. -/
def CacheState.recent : CacheState → Bool
  | .fresh | .refreshed => true
  | .stale | .degraded => false

def requires (S : Setting) (known : Set Fact) : Request → Prop
  | .put key value => Sound S key value ∧ match key, value with
    | .current, pointer => .since pointer.revision pointer.refreshedAt ∈ known ∧
        .after pointer.revision pointer.generation ∈ known
    | .generation, _ => False
    | .chunk _, _ => True
  | .putGeneration => .opened ∈ known
  | .take flight => .launched flight ∈ known
  | .delete key => key = .current
  | .settle _ flight (.ok catalogue) => .taken flight ∈ known ∧ Vouched known flight catalogue.revision ∧
      (catalogue.cacheState.recent = true → .since catalogue.revision catalogue.refreshedAt ∈ known)
  | .log .invalidated => .cut ∈ known
  | .accept snapshot => Faithful S snapshot
  | .returned reply => ∃ flight, .mine flight ∈ known ∧
      ((∃ catalogue, .got flight catalogue ∈ known ∧ catalogue.revision = reply.revision) ∨
        .taken flight ∈ known ∧ Vouched known flight reply.revision)
  | _ => True

/-- Which answers are counted on. -/
def reliable (S : Setting) : (q : Request) → Answer q → Prop
  | .get key, .ok (some value) => Sound S key value
  | .loadCatalogue revision, .ok catalogue => (S.tree revision).bind (loadCatalogue S.services) = some catalogue
  | _, _ => True

abbrev readers (S : Setting) : Discipline signature (Set Fact) :=
  Discipline.learning teaches (requires S) (reliable S)

section Programs

variable {S : Setting} {service : Service} {known : Set Fact} {α β : Type}

/-- The program keeps the discipline and ends in `Q`. -/
abbrev Learns (S : Setting) (p : Program α) (known : Set Fact) (Q : Except CatalogueError α → Set Fact → Prop) : Prop :=
  Discipline.Learns teaches (requires S) (reliable S) p known Q

open Discipline (learns_ask learns_bind learns_pure learns_throw learns_tryCatch)

variable {known' : Set Fact} {revision : String} {Q : Except CatalogueError α → Set Fact → Prop} {pointer : Pointer}
  {ps : List (Program α)} (snapshot : Snapshot) (publicationId : ℕ) {generation : Option ℕ} {options : RefreshOptions}

theorem Vouched.mono {flight : ℕ} (h : Vouched known flight revision)
    (hsub : known ⊆ known') : Vouched known' flight revision := by
  rcases h with h | ⟨g, hafter, h | h⟩
  · exact .inl (hsub h)
  · exact .inr ⟨g, hsub hafter, .inl (hsub h)⟩
  · exact .inr ⟨g, hsub hafter, .inr (hsub h)⟩

theorem learns_request {q : Request} {Q : Except CatalogueError (Answer q) → Set Fact → Prop}
    (hneeds : requires S known q)
    (h : ∀ a known', known ⊆ known' → teaches known q a ⊆ known' → reliable S q a → Q (.ok a) known') :
    Learns S (request q) known Q :=
  learns_ask hneeds fun a known' hsub hteaches ha => learns_pure (h a known' hsub hteaches ha)

theorem learns_plain {q : Request} {f : Answer q → Program α}
    (hneeds : requires S known q) (h : ∀ a known', known ⊆ known' → Learns S (f a) known' Q) :
    Learns S (request q >>= f) known Q :=
  learns_ask hneeds fun a known' hsub _ _ => h a known' hsub

theorem requires_log {event : LogEvent} (h : event ≠ .invalidated) : requires S known (.log event) := by
  cases event with
  | invalidated => exact absurd rfl h
  | _ => trivial

theorem learns_outcome {p : Program α} (h : Learns S p known Q) :
    Learns S (outcome p) known fun r known' => ∃ x, r = .ok x ∧ Q x known' := by
  refine learns_tryCatch (P := fun r known' => match r with
    | .ok x => Q x known'
    | .error e => Q (.error e) known') ?_ (fun x _ _ hx => ⟨x, rfl, hx⟩) fun e _ _ he => learns_pure ⟨_, rfl, he⟩
  exact learns_bind h (fun a known' _ ha => learns_pure ha) fun e known' _ he => he

/-! ### Reading -/

theorem learns_readGeneration {flight : ℕ} {f : GenerationRead → Program α} (htaken : .taken flight ∈ known)
    (h : ∀ read known', known ⊆ known' → (.read read.value ∈ known' ∧ .covers read.value flight ∈ known') ∨
      (read.value = none ∧ read.failed = true ∧ .unread ∈ known') → Learns S (f read) known' Q) :
    Learns S (readGeneration >>= f) known Q := by
  refine learns_ask trivial fun a known' hsub hteaches _ => ?_
  rcases a with _ | value
  · refine learns_ask trivial fun _ known'' hsub' _ _ => ?_
    exact h ⟨none, true⟩ known'' (hsub.trans hsub') (.inr ⟨rfl, rfl, hsub' (hteaches rfl)⟩)
  · exact h ⟨value, false⟩ known' hsub
      (.inl ⟨hteaches (.inl rfl), hteaches (.inr ⟨flight, rfl, htaken⟩)⟩)

theorem learns_readChunk {key : ChunkKey} {index : ℕ} {entries part : List StoredArtifact}
    (hentries : entriesAt S key.revision = some entries) (hpart : (groups S entries)[key.index]? = some part) :
    Learns S (readChunk S service pointer key index) known fun r _ => ∀ read, r = .ok read → read = part := by
  refine learns_ask trivial fun a known' _ _ ha => ?_
  rcases a with _ | _ | chunk
  · exact learns_throw fun read hr => by cases hr
  · exact learns_throw fun read hr => by cases hr
  obtain ⟨entries', hentries', hchunk⟩ := ha
  obtain rfl : entries = entries' := Option.some.inj (hentries.symm.trans hentries')
  obtain rfl : part = chunk.entries := Option.some.inj (hpart.symm.trans hchunk)
  simp only [Prog.bind]
  rcases hparse : parseEntries S chunk.entries with _ | parsed
  · exact learns_throw fun read hr => by cases hr
  dsimp only
  split
  · refine learns_pure fun read hr => ?_
    rw [← Except.ok.inj hr]
    exact parseEntries_eq hentries (List.mem_of_getElem? hpart) hparse
  · exact learns_throw fun read hr => by cases hr

theorem learns_settleAll {as : List α}
    (h : List.Forall₂ (fun p a => ∀ known, Learns S p known fun r _ => ∀ b, r = .ok b → b = a) ps as) :
    Learns S (settleAll ps) known fun r _ => ∀ rs, r = .ok rs → ∀ bs, rs.mapM id = .ok bs → bs = as := by
  induction h generalizing known with
  | nil =>
    refine learns_pure fun rs hr bs hbs => ?_
    rw [← Except.ok.inj hr] at hbs
    exact (Except.ok.inj hbs).symm
  | @cons p a ps as hp _ ih =>
    refine learns_bind (learns_outcome (hp known)) (fun x known' _ hx => ?_) fun e _ _ _ rs hrs => by cases hrs
    refine learns_bind ih (fun rs known' _ hrs => learns_pure fun rs' hr bs hbs => ?_) fun e _ _ _ rs hrs => by cases hrs
    rw [← Except.ok.inj hr, List.mapM_cons] at hbs
    obtain ⟨b, hb, hbs⟩ := except_bind_ok.mp hbs
    obtain ⟨bs', hbs', hbs⟩ := except_bind_ok.mp hbs
    obtain ⟨x', hx', hvalue⟩ := hx
    obtain rfl := Except.ok.inj hx'
    rw [← Except.ok.inj hbs, hvalue b hb, hrs rs rfl bs' hbs']

theorem learns_promiseAll {as : List α}
    (h : List.Forall₂ (fun p a => ∀ known, Learns S p known fun r _ => ∀ b, r = .ok b → b = a) ps as) :
    Learns S (promiseAll ps) known fun r _ => ∀ bs, r = .ok bs → bs = as := by
  refine learns_bind (learns_settleAll h) (fun rs known' _ hrs => ?_) fun e _ _ _ bs hbs => by cases hbs
  rcases hmap : rs.mapM id with e | values
  · dsimp only
    exact learns_plain trivial fun first _ _ => learns_throw fun bs hbs => by cases hbs
  · refine learns_pure fun bs hbs => ?_
    rw [← Except.ok.inj hbs]
    exact hrs rs rfl values hmap

/-- What a read snapshot is known to be. -/
def SnapshotFacts (S : Setting) (known : Set Fact) (read : SnapshotRead) : Prop :=
  ∀ snapshot, read.snapshot = some snapshot → Faithful S snapshot ∧ .after snapshot.revision read.generation ∈ known ∧
    .since snapshot.revision snapshot.refreshedAt ∈ known

theorem learns_readPointer (hpointer : Sound S .current pointer)
    (hafter : .after pointer.revision pointer.generation ∈ known)
    (hsince : .since pointer.revision pointer.refreshedAt ∈ known) :
    Learns S (readPointer S service pointer) known fun r known' => ∀ read, r = .ok read → SnapshotFacts S known' read := by
  obtain ⟨entries, hentries, hchunks⟩ := hpointer
  unfold readPointer
  split
  · exact learns_throw fun read hr => by cases hr
  have hread : List.Forall₂ (fun p part => ∀ known, Learns S p known fun r _ => ∀ b, r = .ok b → b = part)
      (pointer.chunks.zipIdx.map fun p => readChunk S service pointer p.1 p.2) (groups S entries) := by
    rw [List.forall₂_iff_get]
    refine ⟨by simp [hchunks, chunkKeys], fun i hi hi' known => ?_⟩
    have hkey : (pointer.chunks.zipIdx.map fun p => readChunk S service pointer p.1 p.2).get ⟨i, hi⟩ =
        readChunk S service pointer ⟨pointer.revision, i⟩ i := by
      simp [hchunks, chunkKeys]
    rw [hkey]
    exact learns_readChunk hentries (List.getElem?_eq_getElem hi')
  refine learns_bind (learns_promiseAll hread) (fun chunks known' hsub hchunks' => ?_) fun e _ _ _ read hr => by cases hr
  obtain rfl := hchunks' chunks rfl
  have hfaithful : Faithful S ⟨pointer.revision, pointer.refreshedAt, (groups S entries).flatten⟩ := by
    show entriesAt S pointer.revision = some (groups S entries).flatten
    rw [groups_flatten, hentries]
  dsimp only
  split
  · refine learns_plain hfaithful fun _ known'' hsub' => learns_pure fun read hr snapshot hsnapshot => ?_
    rw [← Except.ok.inj hr] at hsnapshot ⊢
    cases hsnapshot
    exact ⟨hfaithful, hsub' (hsub hafter), hsub' (hsub hsince)⟩
  · exact learns_throw fun read hr => by cases hr

theorem learns_readSnapshot {f : SnapshotRead → Program α}
    (h : ∀ read known', known ⊆ known' → SnapshotFacts S known' read → Learns S (f read) known' Q) :
    Learns S (readSnapshot S service >>= f) known Q := by
  have hread : Learns S (readSnapshot S service) known
      fun r known' => ∃ read, r = .ok read ∧ SnapshotFacts S known' read := by
    refine learns_ask trivial fun a known' _ hteaches ha => ?_
    rcases a with _ | _ | pointer
    · refine learns_plain trivial fun _ known'' _ => learns_pure ⟨_, rfl, fun snapshot hs => by cases hs⟩
    · exact learns_pure ⟨_, rfl, fun snapshot hs => by cases hs⟩
    refine learns_tryCatch (learns_readPointer ha (hteaches (.inl rfl)) (hteaches (.inr rfl)))
      (fun read _ _ hread => ⟨read, rfl, hread read rfl⟩) fun e known'' _ _ => ?_
    cases e <;>
      exact learns_plain trivial fun _ _ _ => learns_pure ⟨_, rfl, fun snapshot hs => by cases hs⟩
  refine learns_bind hread (fun read known' hsub hr => ?_) fun e known' _ hr => ?_
  · obtain ⟨read', hread', hfacts⟩ := hr
    rw [← Except.ok.inj hread'] at hfacts
    exact h read known' hsub hfacts
  · obtain ⟨_, hread', _⟩ := hr
    cases hread'

/-! ### Publishing -/

/-- Nothing is said of what a program returns. -/
abbrev Acts (S : Setting) (p : Program α) (known : Set Fact) : Prop := Learns S p known fun _ _ => True

theorem acts_bind {p : Program α} {f : α → Program β} (hp : Acts S p known)
    (hf : ∀ a known', known ⊆ known' → Acts S (f a) known') : Acts S (p >>= f) known :=
  learns_bind hp (fun a known' hsub _ => hf a known' hsub) fun _ _ _ _ => trivial

theorem acts_when {c : Bool} {p : Program Unit} (hp : Acts S p known) : Acts S (when c p) known := by
  cases c with
  | true => exact hp
  | false => exact learns_pure trivial

theorem acts_log {event : LogEvent} (h : event ≠ .invalidated) : Acts S (log event) known :=
  learns_request (requires_log h) fun _ _ _ _ _ => trivial

theorem acts_cleanup : Acts S (cleanupUnverifiedPublication S service snapshot publicationId) known := by
  have hfailure : ∀ known, Acts S (log .verificationCleanupFailure) known := fun known => acts_log (by decide)
  refine learns_ask trivial fun _ known₁ _ hteaches _ => ?_
  refine learns_plain (hteaches rfl) fun _ known₂ _ => learns_plain trivial fun _ known₃ _ => ?_
  refine acts_bind (acts_when (hfailure _)) fun _ known₄ _ => learns_readSnapshot fun visible known₅ _ _ => ?_
  exact acts_when (learns_plain rfl fun _ _ _ => learns_plain trivial fun _ _ _ => acts_when (hfailure _))

theorem acts_verifyBaseRevision (pointerPublished : Bool) :
    Acts S (verifyBaseRevision S service snapshot publicationId pointerPublished) known := by
  refine learns_plain trivial fun a known' _ => ?_
  rcases a with error | revision
  · refine acts_bind (acts_when (acts_cleanup snapshot publicationId)) fun _ known'' _ => ?_
    cases error with
    | unavailable status => exact learns_plain trivial fun _ _ _ => learns_pure trivial
    | _ => exact learns_throw trivial
  · show Acts S (if revision = snapshot.revision then _ else _) known'
    split
    · exact learns_pure trivial
    · refine acts_bind (acts_when (acts_cleanup snapshot publicationId)) fun _ known'' _ => ?_
      exact learns_plain trivial fun _ _ _ => learns_pure trivial

theorem acts_recoverCachePublication (generation : Option ℕ) (publicationId : ℕ) (pointerAttempted : Bool) :
    Acts S (recoverCachePublication S service snapshot generation publicationId pointerAttempted) known := by
  refine learns_plain trivial fun _ known' _ => learns_readSnapshot fun competing known'' _ _ => ?_
  dsimp only
  split
  · exact learns_pure trivial
  · exact acts_bind (acts_when (acts_cleanup snapshot publicationId)) fun _ _ _ => learns_pure trivial

theorem acts_putChunks {entries : List StoredArtifact}
    (hentries : entriesAt S revision = some entries) {index : ℕ} {parts : List (List StoredArtifact)}
    (hparts : (groups S entries).drop index = parts) : Acts S (putChunks service revision index parts) known := by
  induction parts generalizing index known with
  | nil => exact learns_pure trivial
  | cons part parts ih =>
    have hpart : (groups S entries)[index]? = some part := by
      rw [← List.head?_drop, hparts]
      rfl
    have hrest : (groups S entries).drop (index + 1) = parts := by
      rw [← List.tail_drop, hparts]
      rfl
    refine learns_plain ⟨⟨entries, hentries, hpart⟩, trivial⟩ fun _ known' _ => ?_
    exact acts_bind (ih hrest) fun _ _ _ => learns_pure trivial

section

variable {snapshot : Snapshot} (hfaithful : Faithful S snapshot)
  (hsince : .since snapshot.revision snapshot.refreshedAt ∈ known)
  (hafter : .after snapshot.revision generation ∈ known)

include hfaithful hsince hafter

theorem acts_publishPointer : Acts S (publishPointer S service snapshot generation publicationId
      (chunkKeys snapshot.revision (groups S snapshot.entries).length)) known := by
  refine acts_bind (acts_verifyBaseRevision snapshot publicationId false) fun verified known' hsub => ?_
  rcases verified with _ | preVerification
  swap
  · exact learns_pure trivial
  refine learns_plain ⟨⟨snapshot.entries, hfaithful, rfl⟩, hsub hsince, hsub hafter⟩ fun ticket known'' _ => ?_
  refine learns_plain trivial fun settled known₃ _ => ?_
  split
  · exact acts_recoverCachePublication snapshot generation publicationId true
  refine acts_bind (acts_verifyBaseRevision snapshot publicationId true) fun verified known₄ _ => ?_
  rcases verified with _ | postVerification
  · exact learns_plain trivial fun _ _ _ => learns_pure trivial
  · exact learns_pure trivial

theorem acts_publish {localGeneration flight : ℕ} (htaken : .taken flight ∈ known) :
    Acts S (publish S service snapshot generation localGeneration) known := by
  refine learns_plain trivial fun publicationId known₁ h₁ => ?_
  refine acts_bind (acts_putChunks hfaithful rfl) fun tickets known₂ h₂ => learns_plain trivial fun settled known₃ h₃ => ?_
  have hsub : known ⊆ known₃ := h₁.trans (h₂.trans h₃)
  split
  · exact acts_recoverCachePublication snapshot generation publicationId false
  refine learns_readGeneration (hsub htaken) fun read known₄ h₄ _ => learns_plain trivial fun current known₅ h₅ => ?_
  have hsub' : known ⊆ known₅ := hsub.trans (h₄.trans h₅)
  split
  · exact learns_pure trivial
  split
  · exact learns_plain trivial fun _ _ _ => learns_pure trivial
  · exact acts_publishPointer publicationId hfaithful (hsub' hsince) (hsub' hafter)

end

/-! ### Loading -/

theorem learns_orThrow {r : Except CatalogueError α} (h : Q r known) : Learns S (orThrow r) known Q := by
  cases r with
  | ok a => exact learns_pure h
  | error e => exact learns_throw h

/-- What `load` knows before it asks the repository. -/
structure Knows (S : Setting) (known : Set Fact) (flight : ℕ) (start : Start) : Prop where
  passed : .passed start.now ∈ known
  taken : .taken flight ∈ known
  generation : (.read start.generation.value ∈ known ∧ .covers start.generation.value flight ∈ known) ∨
    (start.generation.value = none ∧ start.generation.failed = true ∧ .unread ∈ known)
  cached : ∀ cached, start.cached = some cached → Faithful S cached ∧
    .after cached.revision start.generation.value ∈ known ∧ .since cached.revision cached.refreshedAt ∈ known

variable {flight : ℕ} {start : Start}

theorem Knows.mono (h : Knows S known flight start) (hsub : known ⊆ known') : Knows S known' flight start where
  passed := hsub h.passed
  taken := hsub h.taken
  generation := h.generation.imp (fun ⟨hr, hc⟩ => ⟨hsub hr, hsub hc⟩) fun ⟨hnone, hfailed, hunread⟩ =>
    ⟨hnone, hfailed, hsub hunread⟩
  cached cached hcached :=
    let ⟨hfaithful, hafter, hsince⟩ := h.cached cached hcached
    ⟨hfaithful, hsub hafter, hsub hsince⟩

theorem learns_snapshotOf (h : Knows S known flight start) :
    Learns S (snapshotOf S options start revision) known fun r _ => ∀ snapshot, r = .ok snapshot →
      Faithful S snapshot ∧ snapshot.revision = revision ∧ snapshot.refreshedAt = start.now := by
  unfold snapshotOf
  split
  · next cached hcached =>
    obtain ⟨hsome, hsame⟩ := Option.filter_eq_some_iff.mp hcached
    simp only [Bool.and_eq_true, beq_iff_eq] at hsame
    refine learns_plain trivial fun _ known' _ => learns_pure fun snapshot hr => ?_
    rw [← Except.ok.inj hr]
    exact ⟨(h.cached cached hsome).1, hsame.2.symm, rfl⟩
  · refine learns_ask trivial fun a known' _ _ ha => ?_
    show Learns S (orThrow a >>= _) known' _
    refine learns_bind (learns_orThrow (Q := fun r _ => r = a) rfl) (fun loaded known'' _ hloaded => ?_)
      fun e _ _ _ snapshot hr => by cases hr
    subst hloaded
    dsimp only
    split
    · refine learns_pure fun snapshot hr => ?_
      rw [← Except.ok.inj hr]
      refine ⟨?_, rfl, rfl⟩
      show ((S.tree revision).bind (loadCatalogue S.services)).map storedArtifacts = some (storedArtifacts loaded)
      rw [ha]
      rfl
    · exact learns_throw fun snapshot hr => by cases hr

/-- What `load` can vouch for. -/
def CatalogueFacts (known : Set Fact) (flight : ℕ) (catalogue : ResolvedCatalogue) : Prop :=
  Vouched known flight catalogue.revision ∧
    (catalogue.cacheState.recent = true → .since catalogue.revision catalogue.refreshedAt ∈ known)

theorem learns_refresh (h : Knows S known flight start) :
    Learns S (refresh S service options start) known fun r known' => ∀ catalogue, r = .ok catalogue →
      CatalogueFacts known' flight catalogue := by
  refine learns_ask trivial fun a known₁ h₁ hteaches _ => ?_
  show Learns S (orThrow a >>= _) known₁ _
  refine learns_bind (learns_orThrow (Q := fun r _ => r = a) rfl) (fun revision known₂ h₂ hrevision => ?_)
    fun e _ _ _ catalogue hr => by cases hr
  subst hrevision
  -- the branch was at the revision after everything that was read
  have hwithin : .within revision flight ∈ known₂ := h₂ (hteaches (.inr (.inr (.inr ⟨flight, rfl, h.taken⟩))))
  have hsince : .since revision start.now ∈ known₂ := h₂ (hteaches (.inr (.inr (.inl ⟨start.now, rfl, h.passed⟩))))
  have hafter : .after revision start.generation.value ∈ known₂ := by
    rcases h.generation with ⟨hread, -⟩ | ⟨hnone, -⟩
    · exact h₂ (hteaches (.inr (.inl ⟨_, rfl, hread⟩)))
    · rw [hnone]
      exact h₂ (hteaches (.inl rfl))
  refine learns_bind (learns_snapshotOf (h.mono (h₁.trans h₂))) (fun snapshot known₃ h₃ hsnapshot => ?_)
    fun e _ _ _ catalogue hr => by cases hr
  obtain ⟨hfaithful, rfl, hnow⟩ := hsnapshot snapshot rfl
  rw [← hnow] at hsince
  refine learns_bind (acts_publish hfaithful (h₃ hsince) (h₃ hafter) (h₃ (h₂ (h₁ h.taken))))
    (fun publication known₄ h₄ _ => ?_) fun e _ _ _ catalogue hr => by cases hr
  refine learns_plain trivial fun _ known₅ h₅ => learns_pure fun catalogue hr => ?_
  rw [← Except.ok.inj hr]
  exact ⟨.inl (h₅ (h₄ (h₃ hwithin))), fun _ => h₅ (h₄ (h₃ hsince))⟩

theorem learns_fallBack {error : CatalogueError} (h : Knows S known flight start) :
    Learns S (fallBack start error) known fun r known' => ∀ catalogue, r = .ok catalogue →
      CatalogueFacts known' flight catalogue := by
  refine learns_plain trivial fun _ known₁ h₁ => ?_
  split
  · next cached status hcached =>
    refine learns_ask trivial fun _ known₂ h₂ hteaches _ => learns_pure fun catalogue hr => ?_
    rw [← Except.ok.inj hr]
    obtain ⟨-, hafter, -⟩ := h.cached cached hcached
    refine ⟨.inr ⟨start.generation.value, h₂ (h₁ hafter), ?_⟩, fun hrecent => by cases hrecent⟩
    rcases h.generation with ⟨-, hcovers⟩ | ⟨-, -, hunread⟩
    · exact .inl (h₂ (h₁ hcovers))
    · exact .inr (hteaches ⟨flight, rfl, h₁ h.taken, h₁ hunread⟩)
  · exact learns_throw fun catalogue hr => by cases hr

/-- What a load returns is a catalogue its process has learnt of. -/
theorem learns_load (htaken : .taken flight ∈ known) :
    Learns S (load S service options) known fun r known' => ∀ catalogue, r = .ok catalogue →
      CatalogueFacts known' flight catalogue := by
  refine learns_ask trivial fun now known₁ h₁ hnow _ => learns_plain trivial fun localGeneration known₂ h₂ => ?_
  refine learns_readGeneration (h₂ (h₁ htaken)) fun generation known₃ h₃ hgeneration => ?_
  refine learns_readSnapshot fun cachedRead known₄ h₄ hsnapshot => learns_plain trivial fun invalidated known₅ h₅ => ?_
  dsimp only
  generalize hcached : (if invalidated || cachedRead.generation != generation.value then none else cachedRead.snapshot) =
    cached
  refine learns_bind (Q := fun _ _ => True) ?_ (fun _ known₆ h₆ _ => ?_) fun e _ _ _ catalogue hr => by cases hr
  · exact acts_when (acts_log (by decide))
  have hsub : known₄ ⊆ known₆ := h₅.trans h₆
  have hknows : Knows S known₆ flight ⟨now, localGeneration, generation, cached, generation.failed || cachedRead.failed⟩ := by
    refine ⟨hsub (h₄ (h₃ (h₂ (hnow rfl)))), hsub (h₄ (h₃ (h₂ (h₁ htaken)))), ?_, fun c hc => ?_⟩
    · exact hgeneration.imp (fun ⟨hr, hc⟩ => ⟨hsub (h₄ hr), hsub (h₄ hc)⟩) fun ⟨hn, hf, hu⟩ =>
        ⟨hn, hf, hsub (h₄ hu)⟩
    · have hc' : cached = some c := hc
      rw [← hcached] at hc'
      split at hc'
      · cases hc'
      · next hmatch =>
        simp only [Bool.or_eq_true, bne_iff_ne, ne_eq, not_or, Decidable.not_not] at hmatch
        obtain ⟨hfaithful, hafter, hsince⟩ := hsnapshot c hc'
        rw [hmatch.2] at hafter
        exact ⟨hfaithful, hsub hafter, hsub hsince⟩
  split
  · next c hfresh =>
    obtain ⟨hc, hfresh⟩ := Option.filter_eq_some_iff.mp hfresh
    simp only [Bool.and_eq_true, Bool.not_eq_eq_eq_not, Bool.not_true, Bool.or_eq_false_iff] at hfresh
    refine learns_plain trivial fun _ known₇ h₇ => learns_pure fun catalogue hr => ?_
    rw [← Except.ok.inj hr]
    obtain ⟨-, hafter, hsince⟩ := hknows.cached c hc
    refine ⟨.inr ⟨generation.value, h₇ hafter, .inl ?_⟩, fun _ => h₇ hsince⟩
    rcases hknows.generation with ⟨-, hcovers⟩ | ⟨-, hfailed, -⟩
    · exact h₇ hcovers
    · exact absurd (hfailed.symm.trans hfresh.1.2.1) (by decide)
  · refine learns_bind (Q := fun _ _ => True) (acts_when (acts_log (by decide))) (fun _ known₇ h₇ _ => ?_)
      fun e _ _ _ catalogue hr => by cases hr
    refine learns_tryCatch (learns_refresh (hknows.mono h₇)) (fun catalogue _ _ h => h) fun e known₈ h₈ _ => ?_
    exact learns_fallBack (hknows.mono (h₇.trans h₈))

/-! ### The calls -/

/-- What `resolve` returns is good enough for its call. -/
def Good (known : Set Fact) (revision : String) : Prop :=
  ∃ flight, .mine flight ∈ known ∧
    ((∃ catalogue, .got flight catalogue ∈ known ∧ catalogue.revision = revision) ∨
      .taken flight ∈ known ∧ Vouched known flight revision)

theorem learns_fly (hmine : .mine flight ∈ known) (hlaunched : .launched flight ∈ known) :
    Learns S (fly S service options flight) known fun r known' => ∀ catalogue, r = .ok catalogue →
      Good known' catalogue.revision := by
  refine learns_ask hlaunched fun _ known₁ h₁ hteaches _ => ?_
  show Learns S (outcome (load S service options) >>= _) known₁ _
  refine learns_bind (learns_outcome (learns_load (hteaches rfl))) (fun result known₂ h₂ hresult => ?_)
    fun e _ _ h => by obtain ⟨x, hx, -⟩ := h; cases hx
  obtain ⟨result', hsame, hfacts⟩ := hresult
  cases hsame
  have htaken : .taken flight ∈ known₂ := h₂ (hteaches rfl)
  rcases result with e | catalogue
  · exact learns_plain trivial fun _ _ _ => learns_throw fun catalogue hr => by cases hr
  obtain ⟨hvouched, hsince⟩ := hfacts catalogue rfl
  refine learns_plain ⟨htaken, hvouched, hsince⟩ fun _ known₃ h₃ => learns_pure fun catalogue' hr => ?_
  rw [← Except.ok.inj hr]
  exact ⟨flight, h₃ (h₂ (h₁ hmine)), .inr ⟨h₃ htaken, hvouched.mono h₃⟩⟩

theorem learns_resolve : Learns S (resolve S service options) known fun r known' => ∀ catalogue, r = .ok catalogue →
      Good known' catalogue.revision := by
  refine learns_ask trivial fun joining known₁ h₁ hteaches _ => ?_
  rcases joining with flight | flight | ⟨flight, existing⟩
  · refine learns_ask trivial fun result known₂ h₂ hteaches' _ => ?_
    rcases result with _ | e | catalogue
    · exact learns_throw fun catalogue hr => by cases hr
    · exact learns_throw fun catalogue hr => by cases hr
    · refine learns_pure fun catalogue' hr => ?_
      rw [← Except.ok.inj hr]
      exact ⟨flight, h₂ (hteaches rfl), .inl ⟨catalogue, hteaches' rfl, rfl⟩⟩
  · exact learns_fly (hteaches (.inl rfl)) (hteaches (.inr rfl))
  · refine learns_ask trivial fun result known₂ h₂ _ _ => ?_
    rcases result with _ | result
    · exact learns_throw fun catalogue hr => by cases hr
    · exact learns_fly (h₂ (hteaches (.inl rfl))) (h₂ (hteaches (.inr rfl)))

theorem acts_list (options : RefreshOptions) : Acts S (list S service options) known := by
  refine learns_bind learns_resolve (fun result known' _ hresult => ?_) fun _ _ _ _ => trivial
  exact learns_request (hresult result rfl) fun _ _ _ _ _ => trivial

theorem acts_findByIdWithRevision (id : String) : Acts S (findByIdWithRevision S service id) known := by
  refine learns_bind learns_resolve (fun result known' _ hresult => ?_) fun _ _ _ _ => trivial
  split
  · split
    · exact learns_request (hresult result rfl) fun _ _ _ _ _ => trivial
    · exact learns_pure trivial
  · exact learns_pure trivial

theorem acts_invalidate : Acts S (invalidate service) known := by
  have hfailure : ∀ known, Acts S (log .invalidationFailure) known := fun known => acts_log (by decide)
  refine learns_ask trivial fun _ known₁ _ hteaches _ => ?_
  refine learns_ask (hteaches rfl) fun ticket known₂ _ hticket _ => ?_
  refine learns_ask trivial fun written known₃ h₃ hwritten _ => ?_
  cases written with
  | false => exact hfailure _
  | true =>
    have hcut : .cut ∈ known₃ := hwritten ⟨rfl, ticket, List.mem_singleton.mpr rfl, hticket rfl⟩
    refine learns_plain rfl fun deletion known₄ h₄ => learns_ask trivial fun deleted known₅ h₅ _ _ => ?_
    cases deleted with
    | false => exact hfailure _
    | true => exact learns_request (h₅ (h₄ hcut)) fun _ _ _ _ _ => trivial

/-- **Every client keeps the discipline.** -/
theorem keeps_client (client : Client) : (readers S).Keeps (client.program S) ∅ fun _ _ => True := by
  have hacts : Acts S (client.program S) ∅ := by
    cases client with
    | list service options => exact acts_list options
    | find service id => exact acts_findByIdWithRevision id
    | invalidate service => exact acts_invalidate
    | commit revision => exact learns_request trivial fun _ _ _ _ _ => trivial
    | tick milliseconds => exact learns_request trivial fun _ _ _ _ _ => trivial
    | land ticket => exact learns_request trivial fun _ _ _ _ _ => trivial
  exact Discipline.Keeps.mono hacts fun _ _ _ => trivial

end Programs

end ADT.Catalogue
