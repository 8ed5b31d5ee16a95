import ADT.Lib.Basics
import ADT.Lib.Faults

/-!
# Release.Publication — the tags of the Runtime image

`publicationPlan` and `reconcile` of `scripts/reconcile-runtime-publication.mjs`.  The registry is what the pushes left
that took effect; an inspection, a push and the check of the newest main may fail, and a run may be gone at each of
them.
-/

namespace ADT.Release

open Faults Faults.Run

/-! ### Images and tags -/

/-- What an inspection finds of an image. -/
structure Image where
  source : String
  release : ℤ
  digest : String

/-- `shaPattern` -/
def isSha (s : String) : Bool := s.toList.length == 40 && s.toList.all isLowerHex

/-- `digestPattern` -/
def isDigest (s : String) : Bool :=
  "sha256:".toList.isPrefixOf s.toList && (s.toList.drop 7).length == 64 && (s.toList.drop 7).all isLowerHex

def isSafeInteger (n : ℤ) : Bool := -(2 ^ 53 - 1) ≤ n && n ≤ 2 ^ 53 - 1

def releaseTag (release : ℤ) : String := "r" ++ toString release

inductive Action where
  | noop
  | publish
  deriving DecidableEq

section Plan

variable (source : String) (release : ℤ)

def validState : Option Image → Bool
  | none => true
  | some value => isSha value.source && isDigest value.digest && isSafeInteger value.release && 0 < value.release

def publicationPlan (sha revision latest : Option Image) : Except String Action :=
  if !isSha source || !isSafeInteger release || release < 1 || !([sha, revision, latest].all validState) then
    .error "Invalid or unobserved publication state"
  else if sha.isSome ≠ revision.isSome then
    .error "Partial immutable publication; operator reconciliation required"
  else if [sha, revision].any fun state => state.any fun image => image.source ≠ source || image.release ≠ release then
    .error "Immutable tag conflicts with trusted Runtime source"
  else if sha.isSome && sha.map (·.digest) ≠ revision.map (·.digest) then
    .error "Immutable tag digests disagree"
  else if latest.any fun l => l.release == release && (l.source ≠ source || sha.any fun image => l.digest ≠ image.digest) then
    .error "latest contradicts current immutable release"
  else if sha.isSome then
    if !latest.any fun l => release ≤ l.release then .error "Partial publication: latest is missing or behind"
    else .ok .noop
  else if latest.any fun l => release ≤ l.release then .error "latest exists without matching immutable tags"
  else .ok .publish

variable {source release}

/-- The tags of the source and the release name one image of that source, and `latest` is not behind. -/
structure Published (source : String) (release : ℤ) (sha revision latest : Option Image) : Prop where
  pair : ∃ s r, sha = some s ∧ revision = some r ∧ s.source = source ∧ r.source = source ∧ s.release = release ∧
    r.release = release ∧ s.digest = r.digest
  latest : ∃ l, latest = some l ∧ release ≤ l.release

theorem publicationPlan_noop {sha revision latest : Option Image}
    (h : publicationPlan source release sha revision latest = .ok .noop) :
    Published source release sha revision latest := by
  unfold publicationPlan at h
  obtain ⟨-, h1⟩ := of_ite_error h
  obtain ⟨hpair, h2⟩ := of_ite_error h1
  obtain ⟨hown, h3⟩ := of_ite_error h2
  obtain ⟨hdigest, h4⟩ := of_ite_error h3
  obtain ⟨-, h5⟩ := of_ite_error h4
  rcases sha with _ | s
  · rw [if_neg (by simp)] at h5
    cases (of_ite_error h5).2
  · rcases revision with _ | r
    · exact absurd (by simp) hpair
    · rw [if_pos Option.isSome_some] at h5
      have hlatest := (of_ite_error h5).1
      refine ⟨⟨s, r, rfl, rfl, ?_⟩, ?_⟩
      · simp at hown hdigest
        exact ⟨hown.1.1, hown.2.1, hown.1.2, hown.2.2, hdigest⟩
      · rcases latest with _ | l
        · exact absurd rfl hlatest
        · exact ⟨l, rfl, by simpa using hlatest⟩

theorem publicationPlan_publish {sha revision latest : Option Image}
    (h : publicationPlan source release sha revision latest = .ok .publish) :
    isSha source ∧ sha = none ∧ revision = none ∧ ∀ l, latest = some l → l.release < release := by
  unfold publicationPlan at h
  obtain ⟨hvalid, h1⟩ := of_ite_error h
  obtain ⟨hpair, h2⟩ := of_ite_error h1
  obtain ⟨-, h3⟩ := of_ite_error h2
  obtain ⟨-, h4⟩ := of_ite_error h3
  obtain ⟨-, h5⟩ := of_ite_error h4
  rcases sha with _ | s
  · have hrevision : revision = none := by simpa using hpair
    rw [if_neg (by simp)] at h5
    have hlatest := (of_ite_error h5).1
    have hsource : isSha source := by
      simp only [Bool.or_eq_true, Bool.not_eq_true', not_or, Bool.not_eq_false] at hvalid
      exact hvalid.1.1.1
    refine ⟨hsource, rfl, hrevision, ?_⟩
    rintro l rfl
    simpa using hlatest
  · rw [if_pos Option.isSome_some] at h5
    cases (of_ite_error h5).2

end Plan

/-- A push that took effect. -/
structure Push where
  tag : String
  image : Image

/-- The pushes that took effect, the newest one last. -/
abbrev Log := List Push

abbrev Registry := String → Option Image

def registry (log : Log) : Registry := log.foldl (fun tags p => Function.update tags p.tag (some p.image)) fun _ => none

@[simp] theorem registry_concat (log : Log) (p : Push) :
    registry (log ++ [p]) = Function.update (registry log) p.tag (some p.image) := by
  rw [registry, List.foldl_append]
  rfl

/-! ### `reconcile` -/

/-- The calls of a run, in the rounds and places it makes them. -/
inductive Site where
  | refresh (round : ℕ)
  | observe (round place : ℕ)
  | push (tag : String)
  deriving DecidableEq

inductive Outcome where
  | noop
  | published
  deriving DecidableEq

abbrev Step := Faults.Run Site Log String

def orThrow {α : Type} : Except String α → Step α
  | .ok a => pure a
  | .error e => throw e

def refresh (round : ℕ) : Step Unit :=
  call (.refresh round) "A newer or unclassified input supersedes this publication" fun log => (.ok (), log)

def observe (round place : ℕ) (tag : String) : Step (Option Image) :=
  call (.observe round place) "Cannot inspect Runtime tag" fun log => (.ok (registry log tag), log)

def addPush (tag : String) (image : Image) (log : Log) : Except String Unit × Log := (.ok (), log ++ [⟨tag, image⟩])

def push (tag : String) (image : Image) : Step Unit := call (.push tag) "push failed" (addPush tag image)

structure PublicationState where
  sha : Option Image
  revision : Option Image
  latest : Option Image

section Reconcile

variable (source : String) (release : ℤ)

def PublicationState.plan (state : PublicationState) : Except String Action :=
  publicationPlan source release state.sha state.revision state.latest

/-- A different `latest` is trusted only when its own immutable pair agrees. -/
def trustLatest (round : ℕ) : Option Image → Step Unit
  | none => pure ()
  | some latest =>
    if latest.release ≠ release then do
      let sha ← observe round 3 latest.source
      let revision ← observe round 4 (releaseTag latest.release)
      let _ ← orThrow (publicationPlan latest.source latest.release sha revision (some latest))
    else pure ()

def read (round : ℕ) : Step PublicationState := do
  let sha ← observe round 0 source
  let revision ← observe round 1 (releaseTag release)
  let latest ← observe round 2 "latest"
  trustLatest release round latest
  return ⟨sha, revision, latest⟩

def pushAll (image : Image) : Step Unit := do
  push source image
  push (releaseTag release) image
  push "latest" image

/-- `reconcile`, with the one image of the run. -/
def reconcile (image : Image) : Step Outcome := do
  refresh 0
  let state ← read source release 0
  match ← orThrow (state.plan source release) with
  | .noop => return .noop
  | .publish =>
    refresh 1
    let again ← read source release 1
    if (← orThrow (again.plan source release)) ≠ .publish then
      throw "Publication changed during verification"
    pushAll source release image
    let completed ← read source release 2
    if (← orThrow (completed.plan source release)) ≠ .noop ||
        completed.latest.map (·.digest) ≠ completed.sha.map (·.digest) then
      throw "Published tags did not converge to one verified digest"
    return .published

end Reconcile

/-- A run for a source and a release, with the digest of the image it built and the fates of its calls. -/
structure Publication where
  source : String
  release : ℤ
  digest : String
  fates : Site → Fate

namespace Publication

def run (p : Publication) (log : Log) : Exit String Outcome × Log :=
  reconcile p.source p.release ⟨p.source, p.release, p.digest⟩ p.fates log

end Publication

/-- The log after runs made one at a time from an empty registry. -/
def logAfter (runs : List Publication) : Log := runs.foldl (fun log p => (p.run log).2) []

/-! ### What a push may do -/

/-- What tags keep: one that is named after a source or a release its image, `latest` a release that is not older. -/
structure Grows (before after : Registry) : Prop where
  immutable : ∀ tag image, isSha tag ∨ (∃ release, tag = releaseTag release) → before tag = some image →
    after tag = some image
  latest : ∀ l, before "latest" = some l → ∃ l', after "latest" = some l' ∧ l.release ≤ l'.release

theorem Grows.refl (r : Registry) : Grows r r := ⟨fun _ _ _ h => h, fun l h => ⟨l, h, le_rfl⟩⟩

theorem Grows.trans {r s t : Registry} (h : Grows r s) (h' : Grows s t) : Grows r t where
  immutable tag image hname hr := h'.immutable tag image hname (h.immutable tag image hname hr)
  latest l hl := by
    obtain ⟨m, hm, hlm⟩ := h.latest l hl
    obtain ⟨n, hn, hmn⟩ := h'.latest m hm
    exact ⟨n, hn, hlm.trans hmn⟩

/-- The push sets a tag that was not set, or moves `latest` to a release that is not older. -/
def Allowed (tags : Registry) (p : Push) : Prop :=
  if p.tag = "latest" then ∀ l, tags "latest" = some l → l.release ≤ p.image.release else tags p.tag = none

theorem releaseTag_ne_latest (release : ℤ) : releaseTag release ≠ "latest" := by
  intro h
  have hfirst : (releaseTag release).toList.head? = some 'r' := by
    rw [releaseTag, String.toList_append]
    rfl
  rw [h] at hfirst
  exact absurd hfirst (by decide)

theorem ne_latest_of_isSha {s : String} (h : isSha s) : s ≠ "latest" := by
  rintro rfl
  exact absurd h (by decide)

theorem ne_releaseTag_of_isSha {s : String} (h : isSha s) (release : ℤ) : s ≠ releaseTag release := by
  rintro rfl
  rw [isSha, releaseTag, String.toList_append, Bool.and_eq_true, List.all_append, Bool.and_eq_true] at h
  exact absurd h.2.1 (by decide)

theorem Allowed.grows {tags : Registry} {p : Push} (h : Allowed tags p) :
    Grows tags (Function.update tags p.tag (some p.image)) := by
  unfold Allowed at h
  by_cases hp : p.tag = "latest"
  · rw [if_pos hp] at h
    rw [hp]
    constructor
    · intro tag image hname htag
      have hne : tag ≠ "latest" := by
        rcases hname with hsha | ⟨release, rfl⟩
        · exact ne_latest_of_isSha hsha
        · exact releaseTag_ne_latest release
      rw [Function.update_of_ne hne, htag]
    · intro l hl
      exact ⟨p.image, Function.update_self .., h l hl⟩
  · rw [if_neg hp] at h
    constructor
    · intro tag image _ htag
      have hne : tag ≠ p.tag := by
        rintro rfl
        rw [h] at htag
        cases htag
      rw [Function.update_of_ne hne, htag]
    · intro l hl
      exact ⟨l, by rw [Function.update_of_ne (Ne.symm hp), hl], le_rfl⟩

/-- Every push of the log was allowed when it was made. -/
def Orderly (log : Log) : Prop := ∀ earlier p later, log = earlier ++ p :: later → Allowed (registry earlier) p

theorem orderly_nil : Orderly [] := fun earlier p later h => by simp at h

theorem Orderly.concat {log : Log} {p : Push} (h : Orderly log) (hp : Allowed (registry log) p) :
    Orderly (log ++ [p]) := by
  intro earlier q later hcut
  rcases List.eq_nil_or_concat later with rfl | ⟨later, last, rfl⟩
  · obtain ⟨hlog, hq⟩ := List.append_inj' hcut rfl
    rw [← hlog, ← List.singleton_inj.mp hq]
    exact hp
  · rw [List.concat_eq_append, ← List.cons_append, ← List.append_assoc] at hcut
    exact h earlier q later (List.append_inj' hcut rfl).1

theorem Orderly.grows {earlier later : Log} (h : Orderly (earlier ++ later)) :
    Grows (registry earlier) (registry (earlier ++ later)) := by
  induction later using List.reverseRecOn with
  | nil =>
    rw [List.append_nil]
    exact .refl _
  | append_singleton later p ih =>
    have hlater : Orderly (earlier ++ later) := by
      intro front q back hcut
      exact h front q (back ++ [p]) (by rw [← List.append_assoc, hcut, List.append_assoc, List.cons_append])
    have hp : Allowed (registry (earlier ++ later)) p := h _ p [] (by rw [← List.append_assoc])
    rw [← List.append_assoc, registry_concat]
    exact (ih hlater).trans hp.grows

theorem Orderly.of_append {earlier later : Log} (h : Orderly (earlier ++ later)) : Orderly earlier := by
  intro front p back hcut
  exact h front p (back ++ later) (by rw [hcut, List.append_assoc, List.cons_append])

/-- What a run may leave: the log goes on, and stays orderly. -/
def Continues (log log' : Log) : Prop := log <+: log' ∧ Orderly log'

/-! ### What a run does -/

section Runs

variable {source : String} {release : ℤ} {φ : Site → Fate} {start log : Log}

theorem wp_orThrow {α : Type} {x : Except String α} {ret : α → Log → Prop} {thr : String → Log → Prop}
    {gone : Log → Prop} (hok : ∀ a, x = .ok a → ret a log) (herror : ∀ e, thr e log) :
    Wp (orThrow x) φ ret thr gone log := by
  rcases x with e | a
  · exact herror e
  · exact hok a rfl

theorem keeps_orThrow {α : Type} {I : Log → Prop} (x : Except String α) : Keeps I (orThrow x) fun a => x = .ok a :=
  fun _ _ hI => wp_orThrow (fun _ ha => ⟨hI, ha⟩) fun _ => hI

theorem keeps_observe (log : Log) (round place : ℕ) (tag : String) :
    Keeps (· = log) (observe round place tag) (· = registry log tag) := by
  refine keeps_call ?_
  rintro w rfl
  exact ⟨rfl, fun a h => (Except.ok.inj h).symm⟩

theorem keeps_refresh {I : Log → Prop} (round : ℕ) : Keeps I (refresh round) fun _ => True :=
  keeps_call fun _ hI => ⟨hI, fun _ _ => trivial⟩

theorem keeps_trustLatest (log : Log) (round : ℕ) (latest : Option Image) :
    Keeps (· = log) (trustLatest release round latest) fun _ => True := by
  rcases latest with _ | l
  · exact keeps_pure trivial
  · rw [trustLatest]
    split
    · refine keeps_bind (keeps_observe log _ _ _) fun sha _ => keeps_bind (keeps_observe log _ _ _) fun revision _ => ?_
      exact keeps_bind (keeps_orThrow _) fun _ _ => keeps_pure trivial
    · exact keeps_pure trivial

theorem keeps_read (source : String) (release : ℤ) (log : Log) (round : ℕ) :
    Keeps (· = log) (read source release round)
      (· = ⟨registry log source, registry log (releaseTag release), registry log "latest"⟩) := by
  refine keeps_bind (keeps_observe log _ _ _) fun sha hsha => keeps_bind (keeps_observe log _ _ _) fun revision hrevision =>
    keeps_bind (keeps_observe log _ _ _) fun latest hlatest => keeps_bind (keeps_trustLatest log round latest) fun _ _ => ?_
  exact keeps_pure (by rw [hsha, hrevision, hlatest])

theorem wp_push {tag : String} {image : Image} {ret : Unit → Log → Prop} (hlog : Continues start log)
    (hpush : Allowed (registry log) ⟨tag, image⟩)
    (hret : Continues start (log ++ [⟨tag, image⟩]) → ret () (log ++ [⟨tag, image⟩])) :
    Wp (push tag image) φ ret (fun _ => Continues start) (Continues start) log := by
  have hcall : addPush tag image log = (.ok (), log ++ [⟨tag, image⟩]) := rfl
  have hpushed : Continues start (log ++ [⟨tag, image⟩]) :=
    ⟨hlog.1.trans (List.prefix_append _ _), hlog.2.concat hpush⟩
  rw [push, wp_call_ok hcall]
  exact ⟨fun _ => hret hpushed, fun _ => hlog, fun _ => hpushed, fun _ => hlog⟩

theorem wp_pushAll {image : Image} (hlog : Continues start log) (hsource : isSha source)
    (hsha : registry log source = none) (hrevision : registry log (releaseTag release) = none)
    (hlatest : ∀ l, registry log "latest" = some l → l.release < image.release) :
    Wp (pushAll source release image) φ (fun _ => Continues start) (fun _ => Continues start) (Continues start) log := by
  have h1 : Allowed (registry log) ⟨source, image⟩ := by
    rw [Allowed, if_neg (ne_latest_of_isSha hsource)]
    exact hsha
  have h2 : Allowed (registry (log ++ [⟨source, image⟩])) ⟨releaseTag release, image⟩ := by
    rw [Allowed, if_neg (releaseTag_ne_latest release), registry_concat,
      Function.update_of_ne (ne_releaseTag_of_isSha hsource release).symm]
    exact hrevision
  have h3 : Allowed (registry (log ++ [⟨source, image⟩] ++ [⟨releaseTag release, image⟩])) ⟨"latest", image⟩ := by
    rw [Allowed, if_pos rfl, registry_concat, Function.update_of_ne (releaseTag_ne_latest release).symm, registry_concat,
      Function.update_of_ne (ne_latest_of_isSha hsource).symm]
    exact fun l hl => (hlatest l hl).le
  rw [pushAll, wp_bind]
  refine wp_push hlog h1 fun hlog => ?_
  rw [wp_bind]
  refine wp_push hlog h2 fun hlog => ?_
  exact wp_push hlog h3 fun hlog => hlog

/-- What is published is what the tags of the log say. -/
abbrev PublishedIn (source : String) (release : ℤ) (log : Log) : Prop :=
  Published source release (registry log source) (registry log (releaseTag release)) (registry log "latest")

/-- The script only goes on in order, and ends published. -/
theorem wp_reconcile (image : Image) (himage : image.release = release) (hlog : Orderly log) :
    Wp (reconcile source release image) φ (fun _ log' => Continues log log' ∧ PublishedIn source release log')
      (fun _ => Continues log) (Continues log) log := by
  have hstart : Continues log log := ⟨List.prefix_refl _, hlog⟩
  have hstays : ∀ {log' : Log}, log' = log → Continues log log' := fun h => h ▸ hstart
  rw [reconcile, wp_bind]
  refine (keeps_refresh (I := (· = log)) 0 φ log rfl).mono ?_ (fun _ _ h => hstays h) fun _ h => hstays h
  rintro _ _ ⟨rfl, -⟩
  rw [wp_bind]
  refine (keeps_read source release _ 0 φ _ rfl).mono ?_ (fun _ _ h => hstays h) fun _ h => hstays h
  rintro _ _ ⟨rfl, rfl⟩
  rw [wp_bind]
  refine wp_orThrow ?_ fun _ => hstart
  rintro (_ | _) hplan
  · exact ⟨hstart, publicationPlan_noop hplan⟩
  · dsimp only
    rw [wp_bind]
    refine (keeps_refresh (I := (· = _)) 1 φ _ rfl).mono ?_ (fun _ _ h => hstays h) fun _ h => hstays h
    rintro _ _ ⟨rfl, -⟩
    rw [wp_bind]
    refine (keeps_read source release _ 1 φ _ rfl).mono ?_ (fun _ _ h => hstays h) fun _ h => hstays h
    rintro _ _ ⟨rfl, rfl⟩
    rw [wp_bind]
    refine wp_orThrow (fun again hagain => ?_) fun _ => hstart
    obtain rfl : again = .publish := Except.ok.inj (hagain.symm.trans hplan)
    rw [if_neg (by decide)]
    obtain ⟨hsource, hsha, hrevision, hlatest⟩ := publicationPlan_publish hplan
    rw [wp_bind]
    refine (wp_pushAll hstart hsource hsha hrevision fun l hl => himage ▸ hlatest l hl).mono ?_ (fun _ _ h => h) fun _ h => h
    intro _ pushed hpushed
    have hends : ∀ {log' : Log}, log' = pushed → Continues _ log' := fun h => h ▸ hpushed
    rw [wp_bind]
    refine (keeps_read source release _ 2 φ _ rfl).mono ?_ (fun _ _ h => hends h) fun _ h => hends h
    rintro _ _ ⟨rfl, rfl⟩
    rw [wp_bind]
    refine wp_orThrow (fun completed hcompleted => ?_) fun _ => hpushed
    split
    · exact hpushed
    · rename_i hconverged
      have hnoop : completed = .noop := by
        by_contra hne
        exact hconverged (by simp [hne])
      exact ⟨hpushed, publicationPlan_noop (hnoop ▸ hcompleted)⟩

variable (p : Publication) (runs : List Publication)

theorem Publication.run_continues (hlog : Orderly log) : Continues log (p.run log).2 := by
  have hrun := @wp_reconcile p.source p.release p.fates log ⟨p.source, p.release, p.digest⟩ rfl hlog
  have hworld := hrun.mono (fun _ _ h => h.1) (fun _ _ h => h) fun _ h => h
  exact hworld.world

theorem Publication.run_published (hlog : Orderly log) {outcome : Outcome}
    (h : (p.run log).1 = .returned outcome) : PublishedIn p.source p.release (p.run log).2 := by
  have hrun := @wp_reconcile p.source p.release p.fates log ⟨p.source, p.release, p.digest⟩ rfl hlog
  exact (hrun.of_returned h).2

theorem logAfter_concat (p : Publication) : logAfter (runs ++ [p]) = (p.run (logAfter runs)).2 := by
  rw [logAfter, List.foldl_append]
  rfl

theorem logAfter_orderly : Orderly (logAfter runs) := by
  induction runs using List.reverseRecOn with
  | nil => exact orderly_nil
  | append_singleton runs p ih =>
    rw [logAfter_concat]
    exact (p.run_continues ih).2

theorem logAfter_prefix (before after : List Publication) : logAfter before <+: logAfter (before ++ after) := by
  induction after using List.reverseRecOn with
  | nil =>
    rw [List.append_nil]
  | append_singleton after p ih =>
    rw [← List.append_assoc, logAfter_concat]
    exact ih.trans (p.run_continues (logAfter_orderly _)).1

end Runs

/-- **Runs made one at a time, with any failures and kills**: between any two moments the named tags keep their images
and `latest` does not move back, and a run that returns leaves its source and its release published. -/
theorem publications_sound (runs : List Publication) :
    (∀ before after, runs = before ++ after → logAfter before <+: logAfter runs) ∧
      (∀ earlier later, earlier <+: later → later <+: logAfter runs → Grows (registry earlier) (registry later)) ∧
      ∀ before p after outcome, runs = before ++ p :: after → (p.run (logAfter before)).1 = .returned outcome →
        PublishedIn p.source p.release (logAfter (before ++ [p])) := by
  refine ⟨?_, ?_, ?_⟩
  · rintro before after rfl
    exact logAfter_prefix before after
  · rintro earlier _ ⟨more, rfl⟩ ⟨rest, hrest⟩
    have horderly := logAfter_orderly runs
    rw [← hrest] at horderly
    exact horderly.of_append.grows
  · intro before p after outcome _ hreturned
    rw [logAfter_concat]
    exact p.run_published (logAfter_orderly before) hreturned

/-- A publication, and a newer one that is gone before it moves `latest`. -/
def first : Publication where
  source := "aaaaaaaaaaaaaaaaaaaaaaaaaaaaaaaaaaaaaaaa"
  release := 1
  digest := "sha256:1111111111111111111111111111111111111111111111111111111111111111"
  fates := fun _ => .done

def second : Publication where
  source := "bbbbbbbbbbbbbbbbbbbbbbbbbbbbbbbbbbbbbbbb"
  release := 2
  digest := "sha256:2222222222222222222222222222222222222222222222222222222222222222"
  fates := fun site => if site = .push "latest" then .killed else .done

theorem two_publications_sound : Grows (registry (logAfter [first])) (registry (logAfter [first, second])) ∧
    PublishedIn first.source first.release (logAfter [first]) := by
  have hfirst : (first.run (logAfter [])).1 = .returned .published := by decide +kernel
  have h := publications_sound [first, second]
  exact ⟨h.2.1 _ _ (h.1 [first] [second] rfl) (List.prefix_refl _), h.2.2 [] first [second] .published rfl hfirst⟩

end ADT.Release
