import ADT.Bindings.Evolution

/-!
# Bindings.Manageable — when an MCP server can still be deleted

A deletion first makes sure of the binding, which succeeds only if the secret that the file in Git names is stored and
a row, if there is one, agrees with the file.  An operation that is left half done breaks this (`HalfDone`).
-/

namespace ADT.Bindings

open Faults Run
open Provider (Platform)

variable {P : Platform} {sha : FileSha P}

/-- The secret of a bearer server is stored, and its row, if there is one, has the secret and the trust target of the
file. -/
def Settled (w : World P) (key : Key) : Prop :=
  ∀ d s, w.servers key = some d → d.authentication = .bearer s → (w.secrets s).isSome = true ∧
    ∀ row, w.bindings.lookup (.server key) = some row →
      row.secretId = s ∧ mcpTrustTarget P d.endpointUrl = some row.trustTarget

/-! ### Settled servers -/

section Settled

variable {w w' : World P} {key : Key} {d : McpServerDefinition P} {s : SecretId}

theorem settled_of_open (h : ∀ d, w.servers key = some d → d.authentication = .none) : Settled w key := by
  intro d s hd hs
  rw [h d hd] at hs
  cases hs

theorem settled_of_stored_open (hnone : d.authentication = .none) : Settled (w.storeServer key (some d)) key :=
  settled_of_open fun d' hd' => by
    rw [World.storeServer_servers, Function.update_self] at hd'
    cases hd'
    exact hnone

theorem settled_of_unbound (hd : w.servers key = some d) (hs : d.authentication = .bearer s)
    (halive : (w.secrets s).isSome = true) (hrow : w.bindings.lookup (.server key) = none) : Settled w key := by
  intro d' s' hd' hs'
  rw [hd] at hd'
  cases hd'
  rw [hs] at hs'
  cases hs'
  exact ⟨halive, fun row hrow' => by rw [hrow] at hrow'; cases hrow'⟩

theorem settled_of_holds {b : BindingId} (hd : w.servers key = some d) (hs : d.authentication = .bearer s)
    (halive : (w.secrets s).isSome = true) (hrow : Holds w key d.endpointUrl s b) : Settled w key := by
  intro d' s' hd' hs'
  rw [hd] at hd'
  cases hd'
  rw [hs] at hs'
  cases hs'
  obtain ⟨trustTarget, htarget, hrow⟩ := hrow
  refine ⟨halive, fun row hrow' => ?_⟩
  rw [hrow] at hrow'
  cases hrow'
  exact ⟨rfl, htarget⟩

theorem Settled.dropSecret (h : Settled w key) (hne : ∀ d, w.servers key = some d → d.authentication ≠ .bearer s) :
    Settled (w.dropSecret s) key := by
  intro d' s' hd' hs'
  obtain ⟨halive, hrow⟩ := h d' s' hd' hs'
  have hs : s' ≠ s := fun heq => hne d' hd' (heq ▸ hs')
  refine ⟨?_, fun row hrow' => ?_⟩
  · rw [World.dropSecret_secrets, Function.update_of_ne hs]
    exact halive
  · rw [lookup_dropSecret, Option.filter_eq_some_iff] at hrow'
    exact hrow row hrow'.1

theorem Settled.follows {o : Owner} (h : Settled w key) (hw : w.Sound) (hf : Follows o w w') (hne : o ≠ .server key) :
    Settled w' key := by
  intro d s hd hs
  rw [hf.servers key hne] at hd
  obtain ⟨halive, hrow⟩ := h d s hd hs
  have howner : s.owner ≠ o := fun heq => hne (heq.symm.trans (hw.named key d s hd hs))
  rw [hf.rows _ hne.symm, hf.secrets s howner]
  exact ⟨halive, hrow⟩

theorem assertIdentity_of_definitionId (h : Workflow.definitionId key.2 = true) : assertIdentity key = true := by
  rw [Workflow.definitionId, Bool.and_eq_true] at h
  exact h.1

theorem Settled.ensure (h : Settled w key) (hw : w.Sound) (hd : w.servers key = some d)
    (hs : d.authentication = .bearer s) :
    ∃ b w', ensureMcpServerCredentialBinding key d.endpointUrl s w = (.ok b, w') ∧ Holds w' key d.endpointUrl s b ∧
      w'.servers = w.servers ∧ w'.secrets = w.secrets := by
  obtain ⟨halive, hrow⟩ := h d s hd hs
  obtain ⟨trustTarget, htarget⟩ := Option.isSome_iff_exists.mp d.secure
  have hid : assertIdentity key = true := assertIdentity_of_definitionId (hw.filed key d hd ▸ d.identified)
  unfold ensureMcpServerCredentialBinding
  rw [hid, htarget]
  dsimp only
  cases hlookup : w.bindings.lookup (.server key) with
  | none =>
    refine ⟨_, _, if_pos halive, ⟨trustTarget, htarget, AList.lookup_insert _⟩, rfl, rfl⟩
  | some row =>
    obtain ⟨rfl, hsame⟩ := hrow row hlookup
    rw [htarget] at hsame
    cases hsame
    refine ⟨row.bindingId, w, if_neg (by simp), ⟨row.trustTarget, htarget, hlookup⟩, rfl, rfl⟩

end Settled

/-! ### Deleting a settled server -/

/-- Every server that is defined in Git can be deleted when nothing fails. -/
def Manageable (sha : FileSha P) (w : World P) : Prop :=
  ∀ repositoryId id d, w.servers (repositoryId, id) = some d →
    (deleteMcpServer sha repositoryId id (sha.server d) (fun _ => .done) w).1 = .returned ()

variable {w : World P} {d : McpServerDefinition P} {thr : Failure → World P → Prop} {gone : World P → Prop}

theorem repoDelete_current {key : Key} (hd : w.servers key = some d) :
    repoDelete sha key (sha.server d) w = (.ok (), w.storeServer key none) := by
  unfold repoDelete
  rw [hd]
  exact if_neg (not_not_intro rfl)

theorem revoke_holds {key : Key} {endpoint : String} {s : SecretId} {b : BindingId}
    (hid : assertIdentity key = true) (h : Holds w key endpoint s b) :
    revokeMcpServerCredentialBinding key b w = (.ok (), w.dropRow (.server key)) := by
  obtain ⟨trustTarget, -, hrow⟩ := h
  unfold revokeMcpServerCredentialBinding
  rw [hrow]
  exact if_pos ⟨hid, rfl⟩

theorem wp_cleanupSecret {site : Site} {s : SecretId} {φ : Fates} {ret : Unit → World P → Prop} :
    Wp (cleanupSecret site (some s)) φ ret thr gone w ↔
      ((φ site).lands → ret () (w.dropSecret s)) ∧ (φ site = .failed → ret () w) ∧ (φ site = .killed → gone w) :=
  wp_ignore_call_ok (a := ()) rfl

theorem wp_call_done {α : Type} {site : Site} {c : World P → Except Failure α × World P} {φ : Fates}
    {ret : α → World P → Prop} {w' : World P} {a : α} (hc : c w = (.ok a, w')) (hφ : φ site = .done) (h : ret a w') :
    Wp (call site .unavailable c) φ ret thr gone w :=
  (wp_call_ok hc).mpr ⟨fun _ => h, fun hf => absurd (hφ.symm.trans hf) (by decide),
    fun hf => absurd (hφ.symm.trans hf) (by decide), fun hf => absurd (hφ.symm.trans hf) (by decide)⟩

theorem Settled.deleted {repositoryId : RepositoryId} {id : String}
    (h : Settled w (repositoryId, id)) (hw : w.Sound) (hd : w.servers (repositoryId, id) = some d) :
    (deleteMcpServer sha repositoryId id (sha.server d) (fun _ => .done) w).1 = .returned () := by
  refine (Wp.returned (p := deleteMcpServer sha repositoryId id (sha.server d)) ?_).elim fun _ hr => hr
  have hid : assertIdentity (repositoryId, id) = true := assertIdentity_of_definitionId (hw.filed _ d hd ▸ d.identified)
  unfold deleteMcpServer
  rw [wp_bind]
  refine wp_call_done rfl rfl ?_
  rw [hd]
  dsimp only
  rw [wp_bind]
  unfold currentAuthority
  cases hauth : d.authentication with
  | none =>
    dsimp only
    rw [wp_pure, wp_bind]
    exact wp_call_done (repoDelete_current hd) rfl trivial
  | bearer s =>
    obtain ⟨b, w₁, hensure, hholds, hservers, -⟩ := h.ensure hw hd hauth
    dsimp only
    rw [wp_bind]
    refine wp_call_done hensure rfl ?_
    rw [wp_pure, wp_bind]
    refine wp_call_done (repoDelete_current ((congrFun hservers _).trans hd)) rfl ?_
    dsimp only
    rw [wp_bind, wp_tryCatch]
    refine wp_call_done (revoke_holds hid (hholds : Holds (w₁.storeServer (repositoryId, id) none) _ _ s b)) rfl ?_
    rw [wp_cleanupSecret]
    exact ⟨fun _ => trivial, fun _ => trivial, fun hk => by cases hk⟩

/-! ### Steps, and steps that are left half done -/

inductive Request where
  | create (repositoryId : RepositoryId) (input : McpServerInput)
  | update (repositoryId : RepositoryId) (input : McpServerInput) (fileSha : String)
  | delete (repositoryId : RepositoryId) (id fileSha : String)

/-- A request, and how the calls made for it come out. -/
structure Step where
  request : Request
  fates : Fates

def Step.world (sha : FileSha P) (step : Step) (w : World P) : World P :=
  match step.request with
  | .create repositoryId input => (createMcpServer sha repositoryId input step.fates w).2
  | .update repositoryId input fileSha => (updateMcpServer sha repositoryId input fileSha step.fates w).2
  | .delete repositoryId id fileSha => (deleteMcpServer sha repositoryId id fileSha step.fates w).2

/-- The stores after the steps, the last one first. -/
def run (sha : FileSha P) : List Step → World P
  | [] => .empty
  | step :: earlier => step.world sha (run sha earlier)

/-- The endpoint has the trust target of the text that the schema stores of it. -/
def sameTarget (P : Platform) (endpoint : String) : Bool :=
  (P.url endpoint).all fun text => decide (mcpTrustTarget P endpoint = mcpTrustTarget P text)

theorem sameTarget_text {endpoint text : String} (h : sameTarget P endpoint = true) (htext : P.url endpoint = some text) :
    mcpTrustTarget P endpoint = mcpTrustTarget P text := by
  rw [sameTarget, htext] at h
  exact of_decide_eq_true h

/-- A row is there before the server names a secret. -/
def Stale (w : World P) (key : Key) : Prop := (w.bindings.lookup (.server key)).isSome = true

instance (w : World P) (key : Key) : Decidable (Stale w key) := inferInstanceAs (Decidable (_ = true))

/-- A server that gets its first secret: the file stays without the secret, or beside another row. -/
def HalfIssued (φ : Fates) (stale : Prop) : Prop :=
  (φ .git = .lost ∧ (stale ∨ (φ .retireCandidate).lands)) ∨
  (φ .git = .done ∧ φ .binding = .killed ∧ stale) ∨
  (φ .git = .done ∧ (φ .binding ≠ .done ∨ stale) ∧ φ .binding ≠ .killed ∧ ¬(φ .gitBack).lands ∧
    (stale ∨ (φ .retireCandidate).lands))

/-- File and row of a server that was to get another secret or endpoint are both put back. -/
def Compensated (φ : Fates) : Prop :=
  φ .binding ≠ .killed ∧ φ .bindingBack ≠ .killed ∧ (φ .binding = .failed ∨ (φ .bindingBack).lands) ∧
    (φ .gitBack = .done ∨ φ .gitBack = .lost ∧ ¬(φ .retireOld).lands)

/-- A server that gets another secret or endpoint: the file is written and the row is not. -/
def HalfMoved (φ : Fates) : Prop :=
  φ .git = .lost ∨ (φ .git = .done ∧ φ .binding ≠ .done ∧ ¬Compensated φ)

/-- A server that is to be left without a secret: the file is put back, and the secret is deleted. -/
def HalfCleared (φ : Fates) : Prop :=
  φ .git = .done ∧ (φ .binding = .failed ∨ φ .binding = .lost) ∧ φ .bindingBack ≠ .killed ∧ φ .gitBack = .lost ∧
    (φ .retireOld).lands

/-- A server that is to be deleted: the file is put back, and the secret is deleted. -/
def HalfDeleted (φ : Fates) : Prop :=
  φ .git = .done ∧ (φ .binding = .failed ∨ φ .binding = .lost) ∧ φ .bindingBack ≠ .killed ∧ (φ .gitBack).lands ∧
    (φ .bindingBack ≠ .done ∨ φ .gitBack = .lost) ∧ (φ .retireOld).lands

def HalfUpdated (w : World P) (key : Key) (old : McpServerDefinition P) (input : McpServerInput) (φ : Fates) : Prop :=
  match old.authentication, input.authenticationMode with
  | .none, .none => False
  | .none, .bearer => sameTarget P input.endpointUrl = false ∨ HalfIssued φ (Stale w key)
  | .bearer _, .none => HalfCleared φ
  | .bearer _, .bearer => (input.token ≠ none ∨ old.endpointUrl ≠ input.endpointUrl) ∧
      (sameTarget P input.endpointUrl = false ∨ HalfMoved φ)

/-- The step leaves one of the stores behind. -/
def HalfDone (w : World P) (step : Step) : Prop :=
  match step.request with
  | .create repositoryId input => input.authenticationMode = .bearer ∧
      (sameTarget P input.endpointUrl = false ∨ HalfIssued step.fates (Stale w (repositoryId, input.id)))
  | .update repositoryId input _ =>
      ∃ old, w.servers (repositoryId, input.id) = some old ∧ HalfUpdated w (repositoryId, input.id) old input step.fates
  | .delete _ _ _ => HalfDeleted step.fates

/-! ### What the calls leave settled -/

/-- However the calls come out, the server is settled wherever the program stops. -/
abbrev Settles {α : Type} (key : Key) (φ : Fates) (p : Op P α) (w : World P) : Prop :=
  Wp p φ (fun _ w' => Settled w' key) (fun _ w' => Settled w' key) (fun w' => Settled w' key) w

section Calls

variable {φ : Fates} {key : Key} {repositoryId : RepositoryId} {w : World P} {d : McpServerDefinition P}
  {ret : McpServerDefinition P → World P → Prop} {thr : Failure → World P → Prop} {gone : World P → Prop}

variable {draft : McpServerDraft} {candidate : Option SecretId} {endpoint : String} {s : SecretId}

theorem wp_repoCreate (hrefused : ∀ e, thr e w) (hgone : gone w)
    (hdone : ∀ d, w.servers (repositoryId, draft.id) = none → mcpServerDefinitionSchema draft = some d →
      φ .git = .done → ret d (w.storeServer (repositoryId, draft.id) (some d)))
    (hlost : ∀ d, w.servers (repositoryId, draft.id) = none → mcpServerDefinitionSchema draft = some d →
      φ .git = .lost → thr .unavailable (w.storeServer (repositoryId, draft.id) (some d))) :
    Wp (call .git .unavailable (repoCreate repositoryId draft)) φ ret thr gone w := by
  cases hfile : w.servers (repositoryId, draft.id) with
  | some old =>
    have hc : repoCreate repositoryId draft w = (.error .conflict, w) := by
      rw [repoCreate, hfile]
    exact (wp_call_error hc).mpr ⟨fun _ => hrefused _, fun _ => hrefused _, fun _ => hrefused _, fun _ => hgone⟩
  | none =>
    cases hschema : mcpServerDefinitionSchema (P := P) draft with
    | none =>
      have hc : repoCreate repositoryId draft w = (.error .invalid, w) := by
        rw [repoCreate, hfile, hschema]
      exact (wp_call_error hc).mpr ⟨fun _ => hrefused _, fun _ => hrefused _, fun _ => hrefused _, fun _ => hgone⟩
    | some d =>
      have hc : repoCreate repositoryId draft w = (.ok d, w.storeServer (repositoryId, draft.id) (some d)) := by
        rw [repoCreate, hfile, hschema]
      exact (wp_call_ok hc).mpr ⟨hdone d hfile hschema, fun _ => hrefused _, hlost d hfile hschema, fun _ => hgone⟩

theorem wp_repoUpdate {fileSha : String} (hrefused : ∀ e, thr e w) (hgone : gone w)
    (hdone : ∀ d, mcpServerDefinitionSchema draft = some d → φ .git = .done →
      ret d (w.storeServer (repositoryId, draft.id) (some d)))
    (hlost : ∀ d, mcpServerDefinitionSchema draft = some d → φ .git = .lost →
      thr .unavailable (w.storeServer (repositoryId, draft.id) (some d))) :
    Wp (call .git .unavailable (repoUpdate sha repositoryId draft fileSha)) φ ret thr gone w := by
  rcases hc : repoUpdate sha repositoryId draft fileSha w with ⟨e | d, w'⟩
  · have hw' : w' = w := by
      unfold repoUpdate at hc
      repeat' split at hc
      all_goals cases hc
      all_goals rfl
    subst hw'
    exact (wp_call_error hc).mpr ⟨fun _ => hrefused _, fun _ => hrefused _, fun _ => hrefused _, fun _ => hgone⟩
  · have hd : mcpServerDefinitionSchema draft = some d ∧ w' = w.storeServer (repositoryId, draft.id) (some d) := by
      unfold repoUpdate at hc
      repeat' split at hc
      all_goals cases hc
      exact ⟨‹_›, rfl⟩
    obtain ⟨hschema, rfl⟩ := hd
    exact (wp_call_ok hc).mpr ⟨hdone d hschema, fun _ => hrefused _, hlost d hschema, fun _ => hgone⟩

theorem Settled.newSecret (h : Settled w key) (o : Owner) (credential : String) :
    Settled (w.newSecret o credential) key := by
  intro d s hd hs
  obtain ⟨halive, hrow⟩ := h d s hd hs
  refine ⟨?_, hrow⟩
  rw [World.newSecret_secrets, Function.update_apply]
  split
  · rfl
  · exact halive

theorem unnamed_next (h : Settled w key) (hw : w.Sound) (o : Owner) :
    ∀ d, w.servers key = some d → d.authentication ≠ .bearer ⟨w.next, o⟩ := by
  intro d hd hs
  exact Nat.lt_irrefl _ (hw.stored _ (h d _ hd hs).1)

theorem wp_cleanup {site : Site} {ret : Unit → World P → Prop} (h : Settled w key)
    (hunnamed : (φ site).lands → ∀ s d, candidate = some s → w.servers key = some d → d.authentication ≠ .bearer s)
    (hret : ∀ w', w'.servers = w.servers → Settled w' key → ret () w') :
    Wp (cleanupSecret site candidate : Op P Unit) φ ret thr (fun w' => Settled w' key) w := by
  cases candidate with
  | none => exact hret w rfl h
  | some s =>
    exact wp_cleanupSecret.mpr ⟨fun hl => hret _ rfl (h.dropSecret fun d hd => hunnamed hl s d rfl hd),
      fun _ => hret w rfl h, fun _ => h⟩

theorem wp_cleanup_throw {α : Type} {ret : α → World P → Prop} {site : Site} {error : Failure} (h : Settled w key)
    (hunnamed : (φ site).lands → ∀ s d, candidate = some s → w.servers key = some d → d.authentication ≠ .bearer s) :
    Wp (do cleanupSecret site candidate; throw error : Op P α) φ ret (fun _ w' => Settled w' key)
      (fun w' => Settled w' key) w := by
  rw [wp_bind]
  exact wp_cleanup h hunnamed fun _ _ hw' => hw'

theorem ensure_unbound {trustTarget : String} (hid : assertIdentity key = true)
    (htarget : mcpTrustTarget P endpoint = some trustTarget) (halive : (w.secrets s).isSome = true)
    (hrow : w.bindings.lookup (.server key) = none) : ensureMcpServerCredentialBinding key endpoint s w =
      (.ok ⟨w.next, .server key, trustTarget⟩, w.bindNew (.server key) trustTarget s) := by
  unfold ensureMcpServerCredentialBinding
  rw [hid, htarget, hrow]
  exact if_pos halive

theorem ensure_stale {row : BindingRow} (hrow : w.bindings.lookup (.server key) = some row) (hne : row.secretId ≠ s) :
    ensureMcpServerCredentialBinding key endpoint s w = (.error .persistenceFailed, w) := by
  unfold ensureMcpServerCredentialBinding
  rw [hrow]
  split
  · exact if_pos (.inl hne)
  · rfl

theorem holds_bindNew {trustTarget : String} (htarget : mcpTrustTarget P endpoint = some trustTarget) :
    Holds (w.bindNew (.server key) trustTarget s) key endpoint s ⟨w.next, .server key, trustTarget⟩ :=
  ⟨trustTarget, htarget, AList.lookup_insert _⟩

theorem wp_ensure_first {ret : BindingId → World P → Prop}
    (hd : w.servers key = some d) (hs : d.authentication = .bearer s) (hid : assertIdentity key = true)
    (htarget : mcpTrustTarget P endpoint = mcpTrustTarget P d.endpointUrl) (halive : (w.secrets s).isSome = true)
    (hrow : ∀ row, w.bindings.lookup (.server key) = some row → row.secretId ≠ s)
    (hdone : ∀ b w', φ .binding = .done → Settled w' key → ret b w')
    (hfailed : ∀ e w', w'.servers = w.servers → φ .binding ≠ .killed → (φ .binding ≠ .done ∨ Stale w key) →
      (¬Stale w key → Settled w' key) → thr e w') (hgone : φ .binding = .killed → gone w) :
    Wp (call .binding .unavailable (ensureMcpServerCredentialBinding key endpoint s)) φ ret thr gone w := by
  cases hlookup : w.bindings.lookup (.server key) with
  | some row =>
    have hstale : Stale w key := by
      rw [Stale, hlookup]
      rfl
    have hne : ∀ f, φ .binding = f → f ≠ .killed → φ .binding ≠ .killed := fun f hf hk => hf ▸ hk
    have hthr : ∀ e, φ .binding ≠ .killed → thr e w := fun e hk => hfailed e w rfl hk (.inr hstale) (absurd hstale)
    exact (wp_call_error (ensure_stale hlookup (hrow row hlookup))).mpr ⟨fun hf => hthr _ (hne _ hf (by decide)),
      fun hf => hthr _ (hne _ hf (by decide)), fun hf => hthr _ (hne _ hf (by decide)), hgone⟩
  | none =>
    obtain ⟨trustTarget, hsome⟩ := Option.isSome_iff_exists.mp d.secure
    have hbound := settled_of_holds (w := w.bindNew (.server key) trustTarget s) hd hs halive (holds_bindNew hsome)
    have hunbound := settled_of_unbound hd hs halive hlookup
    refine (wp_call_ok (ensure_unbound hid (htarget.trans hsome) halive hlookup)).mpr
      ⟨fun hf => hdone _ _ hf hbound, fun hf => ?_, fun hf => ?_, hgone⟩
    · exact hfailed _ w rfl (by rw [hf]; decide) (.inl (by rw [hf]; decide)) fun _ => hunbound
    · exact hfailed _ _ rfl (by rw [hf]; decide) (.inl (by rw [hf]; decide)) fun _ => hbound

theorem wp_uncreate {α : Type} {ret : α → World P → Prop} {s : SecretId} {error : Failure}
    (hd : w.servers key = some d) (hkept : ¬(φ .gitBack).lands → Settled w key ∧ ¬(φ .retireCandidate).lands) :
    Wp (do
      ignore (call .gitBack .unavailable (repoDelete sha key (sha.server d)))
      cleanupSecret .retireCandidate (some s)
      throw error : Op P α) φ ret (fun _ w' => Settled w' key) (fun w' => Settled w' key) w := by
  rw [wp_bind, wp_ignore_call_ok (repoDelete_current hd)]
  have hstays : φ .gitBack = .failed ∨ φ .gitBack = .killed → ¬(φ .gitBack).lands := by
    rintro (hf | hf) <;> rw [hf] <;> decide
  refine ⟨fun _ => ?_, fun hf => ?_, fun hf => (hkept (hstays (.inr hf))).1⟩
  · have hnone : (w.storeServer key none).servers key = none := Function.update_self ..
    refine wp_cleanup_throw (settled_of_open fun d' hd' => ?_) fun _ _ d' _ hd' => ?_
    · rw [hnone] at hd'
      cases hd'
    · rw [hnone] at hd'
      cases hd'
  · obtain ⟨hsettled, hretired⟩ := hkept (hstays (.inl hf))
    exact wp_cleanup_throw hsettled fun hl => absurd hl hretired

end Calls

/-! ### Creating -/

section Create

variable {φ : Fates} {repositoryId : RepositoryId} {input : McpServerInput} {w : World P}

theorem settles_establish_open {d : McpServerDefinition P} (h : Settled w (repositoryId, input.id))
    (hid : d.id = input.id) (hopen : d.authentication = .none) :
    Settles (repositoryId, input.id) φ (establish sha repositoryId input d) w := by
  rw [← hid] at h ⊢
  have hopened : ∀ d', mcpServerDefinitionSchema d.draft = some d' →
      Settled (w.storeServer (repositoryId, d.id) (some d')) (repositoryId, d.id) := by
    intro d' hd'
    obtain ⟨-, hauth, -⟩ := mcpServerDefinitionSchema_some hd'
    exact settled_of_stored_open (hauth.trans hopen)
  unfold establish
  rw [Settles, wp_bind, wp_tryCatch, hopen]
  exact wp_repoCreate (fun _ => wp_cleanup_throw h fun _ _ _ hs => by cases hs) h (fun d' _ hd' _ => hopened d' hd')
    fun d' _ hd' _ => wp_cleanup_throw (hopened d' hd') fun _ _ _ hs => by cases hs

theorem settles_establish_bearer (hP : P.Lawful) {d : McpServerDefinition P} {s : SecretId}
    (h : Settled w (repositoryId, input.id)) (hid : d.id = input.id) (hs : d.authentication = .bearer s)
    (htarget : mcpTrustTarget P input.endpointUrl = mcpTrustTarget P d.endpointUrl)
    (halive : (w.secrets s).isSome = true)
    (hunnamed : ∀ d', w.servers (repositoryId, input.id) = some d' → d'.authentication ≠ .bearer s)
    (hrow : ∀ row, w.bindings.lookup (.server (repositoryId, input.id)) = some row → row.secretId ≠ s)
    (hwhole : ¬HalfIssued φ (Stale w (repositoryId, input.id))) :
    Settles (repositoryId, input.id) φ (establish sha repositoryId input d) w := by
  have hidentity : assertIdentity (repositoryId, input.id) = true :=
    assertIdentity_of_definitionId (hid ▸ d.identified)
  have hunbound : ¬Stale w (repositoryId, input.id) →
      Settled (w.storeServer (repositoryId, input.id) (some d)) (repositoryId, input.id) := fun hstale =>
    settled_of_unbound (Function.update_self ..) hs halive (Option.not_isSome_iff_eq_none.mp hstale)
  unfold establish
  rw [Settles, wp_bind, wp_tryCatch, hs]
  have hgit : ∀ {ret thr gone}, (∀ e, thr e w) → gone w →
      (φ .git = .done → ret d (w.storeServer (repositoryId, input.id) (some d))) →
      (φ .git = .lost → thr .unavailable (w.storeServer (repositoryId, input.id) (some d))) →
      Wp (call .git .unavailable (repoCreate repositoryId d.draft)) φ ret thr gone w := by
    intro ret thr gone hrefused hgone hdone hlost
    rw [← hid] at hdone hlost
    refine wp_repoCreate hrefused hgone (fun d' _ hd' => ?_) fun d' _ hd' => ?_
    · rw [mcpServerDefinitionSchema_draft hP] at hd'
      cases hd'
      exact hdone
    · rw [mcpServerDefinitionSchema_draft hP] at hd'
      cases hd'
      exact hlost
  refine hgit (fun _ => wp_cleanup_throw h ?_) h (fun hdone => ?_) fun hlost => ?_
  · rintro - _ d' ⟨⟩ hd'
    exact hunnamed d' hd'
  · have hfile : (w.storeServer (repositoryId, input.id) (some d)).servers (repositoryId, input.id) = some d :=
      Function.update_self ..
    dsimp only
    rw [wp_tryCatch, wp_bind]
    refine wp_ensure_first hfile hs hidentity htarget halive hrow (fun b w' _ hw' => hw')
      (fun e w' hservers hk hfails hw' => ?_) fun hk => hunbound fun hstale => hwhole (.inr (.inl ⟨hdone, hk, hstale⟩))
    refine wp_uncreate ((congrFun hservers _).trans hfile) fun hstays => ?_
    have hfresh : ¬Stale w (repositoryId, input.id) := fun hstale =>
      hwhole (.inr (.inr ⟨hdone, hfails, hk, hstays, .inl hstale⟩))
    exact ⟨hw' hfresh, fun hretired => hwhole (.inr (.inr ⟨hdone, hfails, hk, hstays, .inr hretired⟩))⟩
  · have hfresh : ¬Stale w (repositoryId, input.id) := fun hstale => hwhole (.inl ⟨hlost, .inl hstale⟩)
    exact wp_cleanup_throw (hunbound hfresh) fun hretired => absurd (.inl ⟨hlost, .inr hretired⟩) hwhole

theorem wp_createSecret {key : Key} {token : Option String} {ret : SecretId → World P → Prop} (h : Settled w key)
    (hret : ∀ credential, token = some credential →
      ret ⟨w.next, .server key⟩ (w.newSecret (.server key) credential)) :
    Wp (createSecret key token : Op P SecretId) φ ret (fun _ w' => Settled w' key) (fun w' => Settled w' key) w := by
  cases token with
  | none => exact h
  | some credential =>
    have hc : create (.server key) credential w = (.ok ⟨w.next, .server key⟩, w.newSecret (.server key) credential) :=
      rfl
    exact (wp_call_ok hc).mpr ⟨fun _ => hret credential rfl, fun _ => h, fun _ => h.newSecret _ _, fun _ => h⟩

theorem settles_create (hP : P.Lawful) (hw : w.Sound) (h : Settled w (repositoryId, input.id))
    (hwhole : ¬HalfDone w ⟨.create repositoryId input, φ⟩) :
    Settles (repositoryId, input.id) φ (createMcpServer sha repositoryId input) w := by
  unfold createMcpServer newAuthentication
  rw [Settles, wp_bind]
  cases hmode : input.authenticationMode with
  | none =>
    dsimp only
    rw [wp_pure]
    split
    · exact h
    · rename_i d hd
      obtain ⟨hid, hauth, -⟩ := mcpServerDefinitionSchema_some hd
      exact settles_establish_open h hid hauth
  | bearer =>
    dsimp only
    rw [wp_bind]
    refine wp_createSecret h fun credential _ => ?_
    rw [wp_pure]
    split
    · exact h.newSecret _ _
    · rename_i d hd
      obtain ⟨hid, hauth, hurl⟩ := mcpServerDefinitionSchema_some hd
      have hsame : sameTarget P input.endpointUrl = true := by
        by_contra hne
        exact hwhole ⟨hmode, .inl (Bool.eq_false_iff.mpr hne)⟩
      have htarget := sameTarget_text hsame hurl
      refine settles_establish_bearer hP (h.newSecret _ _) hid hauth htarget ?_ (unnamed_next h hw _)
        (fun row hrow heq => ?_) fun hhalf => hwhole ⟨hmode, .inr hhalf⟩
      · rw [World.newSecret_secrets, Function.update_self]
        rfl
      · have hlt := hw.stored _ (hw.bound _ row hrow).1
        rw [heq] at hlt
        exact Nat.lt_irrefl _ hlt

end Create

/-! ### Compensating -/

section Compensate

variable {φ : Fates} {key : Key} {repositoryId : RepositoryId} {w : World P} {old saved : McpServerDefinition P}
  {s : SecretId} {b : BindingId}

variable {ret : Unit → World P → Prop} {thr : Failure → World P → Prop} {candidate : Option SecretId}

theorem wp_retire {authorityRestored gitRestored : Bool} {old : Option SecretId} (h : Settled w key)
    (hcandidate : (φ .retireCandidate).lands → ∀ c d, candidate = some c → w.servers key = some d →
      d.authentication ≠ .bearer c)
    (hold : gitRestored = false → (φ .retireOld).lands → ∀ c d, old = some c → w.servers key = some d →
      d.authentication ≠ .bearer c) (hret : ∀ w', Settled w' key → ret () w') :
    Wp (retire authorityRestored gitRestored candidate old : Op P Unit) φ ret thr (fun w' => Settled w' key) w := by
  unfold retire
  split
  · rw [wp_bind]
    refine wp_cleanup h hcandidate fun w' hservers hw' => ?_
    cases gitRestored with
    | true => exact hret w' hw'
    | false =>
      exact wp_cleanup hw' (fun hl c d hc hd => hold rfl hl c d hc (congrFun hservers key ▸ hd)) fun _ _ hw =>
        hret _ hw
  · exact wp_cleanup h hcandidate fun _ _ hw => hret _ hw

theorem restore_alive (old : McpServerDefinition P) (b : BindingId) (hid : assertIdentity key = true)
    (halive : (w.secrets s).isSome = true) :
    ∃ w', restoreMcpServerCredentialBinding key b old.endpointUrl s w = (.ok (), w') ∧
      Holds w' key old.endpointUrl s b ∧ w'.servers = w.servers ∧ w'.secrets = w.secrets := by
  obtain ⟨trustTarget, htarget⟩ := Option.isSome_iff_exists.mp old.secure
  unfold restoreMcpServerCredentialBinding
  rw [hid, htarget]
  dsimp only
  by_cases hrow : w.bindings.lookup (.server key) = some ⟨b, trustTarget, s⟩
  · exact ⟨w, if_pos hrow, ⟨trustTarget, htarget, hrow⟩, rfl, rfl⟩
  · rw [if_neg hrow, if_pos halive]
    exact ⟨_, rfl, ⟨trustTarget, htarget, AList.lookup_insert _⟩, rfl, rfl⟩

theorem settled_of_row (hd : w.servers key = some old) (hs : old.authentication = .bearer s)
    (halive : (w.secrets s).isSome = true)
    (hrow : w.bindings.lookup (.server key) = none ∨ Holds w key old.endpointUrl s b) : Settled w key :=
  hrow.elim (settled_of_unbound hd hs halive) (settled_of_holds hd hs halive)

theorem repoUpdate_back (hP : P.Lawful) (hfile : w.servers (repositoryId, old.id) = some saved) :
    repoUpdate sha repositoryId old.draft (sha.server saved) w =
      (.ok old, w.storeServer (repositoryId, old.id) (some old)) := by
  have hfile' : w.servers (repositoryId, old.draft.id) = some saved := hfile
  rw [repoUpdate, hfile', mcpServerDefinitionSchema_draft hP]
  exact if_neg (not_not_intro rfl)

/-- Compensation leaves the server settled, whether it returns or is killed. -/
theorem wp_compensate (hP : P.Lawful) (hfile : w.servers (repositoryId, old.id) = some saved)
    (hs : old.authentication = .bearer s) (halive : (w.secrets s).isSome = true)
    (hrow : (φ .bindingBack).lands ∨ w.bindings.lookup (.server (repositoryId, old.id)) = none ∨
      Holds w (repositoryId, old.id) old.endpointUrl s b)
    (hback : saved.authentication = .none ∨ φ .bindingBack ≠ .killed ∧ (φ .gitBack).lands)
    (hcandidate : ∀ c, candidate = some c → c ≠ s)
    (hretire : φ .bindingBack ≠ .killed → φ .gitBack = .lost → ¬(φ .retireOld).lands)
    (hret : ∀ w', Settled w' (repositoryId, old.id) → ret () w') :
    Wp (compensate sha repositoryId old saved (some (s, b)) candidate) φ ret thr
      (fun w' => Settled w' (repositoryId, old.id)) w := by
  have hid : assertIdentity (repositoryId, old.id) = true := assertIdentity_of_definitionId old.identified
  have hunnamed : saved.authentication = .none → ∀ w' : World P, w'.servers = w.servers →
      ∀ d, w'.servers (repositoryId, old.id) = some d → d.authentication = .none := by
    intro hnone w' hservers d hd
    rw [hservers, hfile] at hd
    cases hd
    exact hnone
  -- the row is as the old file has it, and the file is put back or not
  have hgit : ∀ (authorityRestored : Bool) (w' : World P), φ .bindingBack ≠ .killed → w'.servers = w.servers →
      w'.secrets = w.secrets → (w'.bindings.lookup (.server (repositoryId, old.id)) = none ∨
        Holds w' (repositoryId, old.id) old.endpointUrl s b) →
      Wp (do
        let gitRestored ← attempt (call .gitBack .unavailable (repoUpdate sha repositoryId old.draft (sha.server saved)))
        retire authorityRestored gitRestored candidate (some s) : Op P Unit) φ ret thr
        (fun w' => Settled w' (repositoryId, old.id)) w' := by
    intro authorityRestored w' hkilled hservers hsecrets hrow'
    have hback' : Settled (w'.storeServer (repositoryId, old.id) (some old)) (repositoryId, old.id) :=
      settled_of_row (Function.update_self ..) hs (hsecrets ▸ halive) hrow'
    have hnamed : ∀ c d, candidate = some c →
        (w'.storeServer (repositoryId, old.id) (some old)).servers (repositoryId, old.id) = some d →
        d.authentication ≠ .bearer c := by
      intro c d hc' hd hauth
      rw [World.storeServer_servers, Function.update_self] at hd
      cases hd
      rw [hs] at hauth
      cases hauth
      exact hcandidate s hc' rfl
    have hstays : ¬(φ .gitBack).lands → ∀ d, w'.servers (repositoryId, old.id) = some d → d.authentication = .none :=
      fun hl => hunnamed (hback.resolve_right fun h => hl h.2) w' hservers
    have hnone : ∀ {d : McpServerDefinition P} {c : SecretId}, d.authentication = .none → d.authentication ≠ .bearer c :=
      fun hd hauth => by
        rw [hd] at hauth
        cases hauth
    rw [wp_bind, wp_attempt_call_ok (repoUpdate_back hP ((congrFun hservers _).trans hfile))]
    refine ⟨fun _ => wp_retire hback' (fun _ => hnamed) (fun h => by cases h) hret, fun hf => ?_, fun hl => ?_,
      fun hk => settled_of_open (hstays (by rw [hk]; decide))⟩
    · have hopen := hstays (by rw [hf]; decide)
      exact wp_retire (settled_of_open hopen) (fun _ _ d _ hd => hnone (hopen d hd))
        (fun _ _ _ d _ hd => hnone (hopen d hd)) hret
    · exact wp_retire hback' (fun _ => hnamed) (fun _ hr => absurd hr (hretire hkilled hl)) hret
  obtain ⟨w₁, hc, hholds, hservers, hsecrets⟩ := restore_alive old b hid halive
  unfold compensate restoreAuthority
  rw [wp_bind, wp_attempt_call_ok hc]
  refine ⟨fun hf => ?_, fun hf => ?_, fun hf => ?_, fun hk => ?_⟩
  · exact hgit true w₁ (by rw [hf]; decide) hservers hsecrets (.inr hholds)
  · refine hgit false w (by rw [hf]; decide) rfl rfl (hrow.resolve_left ?_)
    rw [hf]
    decide
  · exact hgit false w₁ (by rw [hf]; decide) hservers hsecrets (.inr hholds)
  · exact settled_of_open (hunnamed (hback.resolve_right fun h => h.1 hk) w rfl)

theorem wp_compensate_open (hP : P.Lawful) (hfile : w.servers (repositoryId, old.id) = some saved)
    (hs : old.authentication = .none)
    (hkept : ¬(φ .gitBack).lands → Settled w (repositoryId, old.id) ∧ ¬(φ .retireCandidate).lands)
    (hret : ∀ w', Settled w' (repositoryId, old.id) → ret () w') :
    Wp (compensate sha repositoryId old saved none candidate) φ ret thr
      (fun w' => Settled w' (repositoryId, old.id)) w := by
  have hopen : ∀ d, (w.storeServer (repositoryId, old.id) (some old)).servers (repositoryId, old.id) = some d →
      d.authentication = .none := by
    intro d hd
    rw [World.storeServer_servers, Function.update_self] at hd
    cases hd
    exact hs
  have hback : ∀ gitRestored, Wp (retire true gitRestored candidate none : Op P Unit) φ ret thr
      (fun w' => Settled w' (repositoryId, old.id)) (w.storeServer (repositoryId, old.id) (some old)) := by
    intro gitRestored
    refine wp_retire (settled_of_open hopen) (fun _ c d _ hd hauth => ?_) (fun _ _ _ _ hnone => by cases hnone) hret
    rw [hopen d hd] at hauth
    cases hauth
  unfold compensate restoreAuthority
  dsimp only
  rw [wp_bind, wp_pure, wp_bind, wp_attempt_call_ok (repoUpdate_back hP hfile)]
  refine ⟨fun _ => hback true, fun hf => ?_, fun _ => hback false, fun hk => (hkept (by rw [hk]; decide)).1⟩
  obtain ⟨hsettled, hretired⟩ := hkept (by rw [hf]; decide)
  exact wp_retire hsettled (fun hl => absurd hl hretired) (fun _ _ _ _ hnone => by cases hnone) hret

end Compensate

/-! ### Updating -/

section Update

variable {φ : Fates} {repositoryId : RepositoryId} {input : McpServerInput} {fileSha : String} {w : World P}
  {w₀ : World P} {old : McpServerDefinition P} {s s' : SecretId} {b : BindingId}

theorem settles_commit_open (h : Settled w (repositoryId, old.id)) :
    Settles (repositoryId, old.id) φ (commitUpdate sha repositoryId input fileSha old none .none none) w := by
  have hopen : ∀ d, mcpServerDefinitionSchema ⟨old.id, input.name, input.endpointUrl, .none⟩ = some d →
      Settled (w.storeServer (repositoryId, old.id) (some d)) (repositoryId, old.id) := by
    intro d hd
    obtain ⟨-, hauth, -⟩ := mcpServerDefinitionSchema_some hd
    exact settled_of_stored_open hauth
  unfold commitUpdate
  rw [Settles, wp_bind, wp_tryCatch]
  exact wp_repoUpdate (fun _ => h) h (fun d hd _ => hopen d hd) fun d hd _ => hopen d hd

theorem settles_commit_issue (hP : P.Lawful) (h : Settled w (repositoryId, old.id)) (hold : old.authentication = .none)
    (hsame : sameTarget P input.endpointUrl = true) (halive : (w.secrets s).isSome = true)
    (hunnamed : ∀ d, w.servers (repositoryId, old.id) = some d → d.authentication ≠ .bearer s)
    (hrow : ∀ row, w.bindings.lookup (.server (repositoryId, old.id)) = some row → row.secretId ≠ s)
    (hwhole : ¬HalfIssued φ (Stale w (repositoryId, old.id))) :
    Settles (repositoryId, old.id) φ (commitUpdate sha repositoryId input fileSha old none (.bearer s) (some s)) w := by
  have hid : assertIdentity (repositoryId, old.id) = true := assertIdentity_of_definitionId old.identified
  unfold commitUpdate
  rw [Settles, wp_bind, wp_tryCatch]
  refine wp_repoUpdate (fun _ => wp_cleanup_throw h ?_) h (fun d hd hdone => ?_) fun d hd hlost => ?_
  · rintro - _ d ⟨⟩ hd
    exact hunnamed d hd
  · obtain ⟨-, hauth, hurl⟩ := mcpServerDefinitionSchema_some hd
    have hfile : (w.storeServer (repositoryId, old.id) (some d)).servers (repositoryId, old.id) = some d :=
      Function.update_self ..
    have htarget := sameTarget_text hsame hurl
    have hunbound : ¬Stale w (repositoryId, old.id) →
        Settled (w.storeServer (repositoryId, old.id) (some d)) (repositoryId, old.id) := fun hstale =>
      settled_of_unbound hfile hauth halive (Option.not_isSome_iff_eq_none.mp hstale)
    unfold moveBinding
    dsimp only
    rw [wp_bind, wp_tryCatch, wp_bind]
    refine wp_ensure_first hfile hauth hid htarget halive hrow (fun _ w' _ hw' => ?_)
      (fun e w' hservers hk hfails hw' => ?_) fun hk => hunbound fun hstale => hwhole (.inr (.inl ⟨hdone, hk, hstale⟩))
    · exact hw'
    · rw [wp_bind]
      refine wp_compensate_open hP ((congrFun hservers _).trans hfile) hold (fun hstays => ?_) fun _ hw => hw
      have hfresh : ¬Stale w (repositoryId, old.id) := fun hstale =>
        hwhole (.inr (.inr ⟨hdone, hfails, hk, hstays, .inl hstale⟩))
      exact ⟨hw' hfresh, fun hretired => hwhole (.inr (.inr ⟨hdone, hfails, hk, hstays, .inr hretired⟩))⟩
  · obtain ⟨-, hauth, -⟩ := mcpServerDefinitionSchema_some hd
    have hfresh : ¬Stale w (repositoryId, old.id) := fun hstale => hwhole (.inl ⟨hlost, .inl hstale⟩)
    exact wp_cleanup_throw (settled_of_unbound (Function.update_self ..) hauth halive
      (Option.not_isSome_iff_eq_none.mp hfresh)) fun hretired => absurd (.inl ⟨hlost, .inr hretired⟩) hwhole

theorem settles_commit_clear (hP : P.Lawful) (h : Settled w (repositoryId, old.id))
    (hauth : old.authentication = .bearer s) (hholds : Holds w (repositoryId, old.id) old.endpointUrl s b)
    (halive : (w.secrets s).isSome = true) (hwhole : ¬HalfCleared φ) :
    Settles (repositoryId, old.id) φ (commitUpdate sha repositoryId input fileSha old (some (s, b)) .none none) w := by
  have hid : assertIdentity (repositoryId, old.id) = true := assertIdentity_of_definitionId old.identified
  unfold commitUpdate
  rw [Settles, wp_bind, wp_tryCatch]
  have hopen : ∀ (d : McpServerDefinition P) (w' : World P), d.authentication = .none →
      w'.servers (repositoryId, old.id) = some d → ∀ d', w'.servers (repositoryId, old.id) = some d' →
      d'.authentication = .none := by
    intro d w' hd hfile d' hd'
    rw [hfile] at hd'
    cases hd'
    exact hd
  refine wp_repoUpdate (fun _ => h) h (fun d hd hdone => ?_) fun d hd _ => ?_
  · obtain ⟨-, hnone, -⟩ := mcpServerDefinitionSchema_some hd
    have hfile : (w.storeServer (repositoryId, old.id) (some d)).servers (repositoryId, old.id) = some d :=
      Function.update_self ..
    have hholds' : Holds (w.storeServer (repositoryId, old.id) (some d)) (repositoryId, old.id) old.endpointUrl s b :=
      hholds
    have hretire : φ .binding = .failed ∨ φ .binding = .lost → φ .bindingBack ≠ .killed → φ .gitBack = .lost →
        ¬(φ .retireOld).lands := fun hf hk hl hr => hwhole ⟨hdone, hf, hk, hl, hr⟩
    unfold moveBinding
    dsimp only
    rw [wp_bind, wp_tryCatch]
    refine (wp_call_ok (revoke_holds hid hholds')).mpr ⟨fun _ => ?_, fun hf => ?_, fun hf => ?_, fun _ => ?_⟩
    · rw [wp_bind]
      refine wp_cleanup (settled_of_open (hopen d _ hnone hfile)) (fun _ c d' _ hd' hc => ?_) fun _ _ hw => hw
      rw [hopen d _ hnone hfile d' hd'] at hc
      cases hc
    · rw [wp_bind]
      exact wp_compensate hP hfile hauth halive (.inr (.inr hholds')) (.inl hnone) (fun _ hc => by cases hc)
        (hretire (.inl hf)) fun _ hw => hw
    · rw [wp_bind]
      exact wp_compensate hP hfile hauth halive (.inr (.inl (AList.lookup_erase _ _))) (.inl hnone)
        (fun _ hc => by cases hc) (hretire (.inr hf)) fun _ hw => hw
    · exact settled_of_open (hopen d _ hnone hfile)
  · obtain ⟨-, hnone, -⟩ := mcpServerDefinitionSchema_some hd
    exact settled_of_open (hopen d _ hnone (Function.update_self ..))

theorem wp_moveBinding {key : Key} {oldEndpoint newEndpoint : String} {ret : Unit → World P → Prop}
    {thr : Failure → World P → Prop} {gone : World P → Prop} (hid : assertIdentity key = true)
    (hholds : Holds w key oldEndpoint s b) (halive : (w.secrets s').isSome = true)
    (hsecure : (mcpTrustTarget P newEndpoint).isSome = true) (hmoves : oldEndpoint ≠ newEndpoint ∨ s' ≠ s)
    (hdone : ∀ w' b', w'.servers = w.servers → w'.secrets = w.secrets → Holds w' key newEndpoint s' b' → ret () w')
    (hfailed : φ .binding = .failed → thr .unavailable w)
    (hlost : ∀ w', φ .binding = .lost → w'.servers = w.servers → w'.secrets = w.secrets → thr .unavailable w')
    (hgone : φ .binding = .killed → gone w) :
    Wp (moveBinding key (some (s, b)) oldEndpoint newEndpoint (.bearer s')) φ ret thr gone w := by
  obtain ⟨trustTarget, htarget⟩ := Option.isSome_iff_exists.mp hsecure
  obtain ⟨oldTarget, holdTarget, hrow⟩ := hholds
  unfold moveBinding
  dsimp only
  split
  · have hc : replaceMcpServerCredentialBinding key b oldEndpoint newEndpoint s' w =
        (.ok ⟨w.next, .server key, trustTarget⟩, w.bindNew (.server key) trustTarget s') := by
      unfold replaceMcpServerCredentialBinding
      rw [hrow, htarget]
      exact if_pos ⟨hid, rfl, holdTarget.symm, halive⟩
    rw [wp_bind]
    exact (wp_call_ok hc).mpr ⟨fun _ => hdone _ _ rfl rfl (holds_bindNew htarget), hfailed, fun hf => hlost _ hf rfl rfl,
      hgone⟩
  · rename_i hendpoint
    have hendpoint : oldEndpoint = newEndpoint := not_not.mp hendpoint
    subst hendpoint
    have hne : s' ≠ s := hmoves.resolve_left fun h => h rfl
    rw [if_pos hne]
    have hc : rotateMcpServerCredential key b oldEndpoint s' s w =
        (.ok (), w.putRow (.server key) ⟨b, oldTarget, s'⟩) := by
      unfold rotateMcpServerCredential
      rw [hrow]
      exact if_pos ⟨hid, rfl, holdTarget.symm, rfl, halive⟩
    exact (wp_call_ok hc).mpr ⟨fun _ => hdone _ _ rfl rfl ⟨oldTarget, holdTarget, AList.lookup_insert _⟩, hfailed,
      fun hf => hlost _ hf rfl rfl, hgone⟩

/-- An update that moves the binding settles it again, unless the move is cut in half. -/
theorem settles_commit_move (hP : P.Lawful) {candidate : Option SecretId} (h : Settled w (repositoryId, old.id))
    (hauth : old.authentication = .bearer s) (hholds : Holds w (repositoryId, old.id) old.endpointUrl s b)
    (halive : (w.secrets s).isSome = true) (halive' : (w.secrets s').isSome = true)
    (hfile : w.servers (repositoryId, old.id) = some old)
    (hcandidate : ∀ c, candidate = some c → c = s' ∧ c ≠ s)
    (hmoves : old.endpointUrl ≠ input.endpointUrl ∨ s' ≠ s) (hsame : sameTarget P input.endpointUrl = true)
    (hwhole : ¬HalfMoved φ) :
    Settles (repositoryId, old.id) φ
      (commitUpdate sha repositoryId input fileSha old (some (s, b)) (.bearer s') candidate) w := by
  have hid : assertIdentity (repositoryId, old.id) = true := assertIdentity_of_definitionId old.identified
  have hcompensated : φ .git = .done → φ .binding ≠ .done → Compensated φ := fun hg hb =>
    by_contra fun hc => hwhole (.inr ⟨hg, hb, hc⟩)
  unfold commitUpdate
  rw [Settles, wp_bind, wp_tryCatch]
  refine wp_repoUpdate (fun _ => wp_cleanup_throw h ?_) h (fun d hd hdone => ?_) fun d hd hlost => absurd (.inl hlost) hwhole
  · intro _ c d hc hd hdc
    rw [hfile] at hd
    cases hd
    rw [hauth] at hdc
    cases hdc
    exact (hcandidate s hc).2 rfl
  · obtain ⟨-, hbearer, hurl⟩ := mcpServerDefinitionSchema_some hd
    have htarget := sameTarget_text hsame hurl
    have hfile' : (w.storeServer (repositoryId, old.id) (some d)).servers (repositoryId, old.id) = some d :=
      Function.update_self ..
    have hcompensate : ∀ w' : World P, φ .binding ≠ .done → w'.servers (repositoryId, old.id) = some d →
        w'.secrets = w.secrets → ((φ .bindingBack).lands ∨ Holds w' (repositoryId, old.id) old.endpointUrl s b) →
        Wp (do
          compensate sha repositoryId old d (some (s, b)) candidate
          throw Failure.unavailable : Op P Unit) φ
          (fun _ w' => Wp (do
            cleanupSecret .retireOld (obsolete (some (s, b)) (.bearer s'))
            pure d : Op P _) φ (fun _ w' => Settled w' (repositoryId, old.id))
            (fun _ w' => Settled w' (repositoryId, old.id)) (fun w' => Settled w' (repositoryId, old.id)) w')
          (fun _ w' => Settled w' (repositoryId, old.id)) (fun w' => Settled w' (repositoryId, old.id)) w' := by
      intro w' hb hfile'' hsecrets hrow
      obtain ⟨-, hbb, -, hgb⟩ := hcompensated hdone hb
      rw [wp_bind]
      refine wp_compensate hP hfile'' hauth (hsecrets ▸ halive) (hrow.imp_right .inr) (.inr ⟨hbb, ?_⟩)
        (fun c hc => (hcandidate c hc).2) (fun _ hl => ?_) fun _ hw => hw
      · exact hgb.imp id fun h => h.1
      · exact (hgb.resolve_left fun hd => by rw [hd] at hl; cases hl).2
    rw [wp_bind, wp_tryCatch]
    refine wp_moveBinding hid (hholds : Holds (w.storeServer (repositoryId, old.id) (some d)) _ _ s b) halive'
      (htarget ▸ d.secure) hmoves (fun w' b' hservers hsecrets hholds' => ?_) (fun hf => ?_)
      (fun w' hf hservers hsecrets => ?_) fun hk => ?_
    · have hd' : w'.servers (repositoryId, old.id) = some d := (congrFun hservers _).trans hfile'
      have hholds'' : Holds w' (repositoryId, old.id) d.endpointUrl s' b' := by
        obtain ⟨trustTarget, ht, hrow⟩ := hholds'
        exact ⟨trustTarget, htarget ▸ ht, hrow⟩
      rw [wp_bind]
      refine wp_cleanup (settled_of_holds hd' hbearer (hsecrets ▸ halive') hholds'') (fun _ c d' hc hfile'' hdc => ?_)
        fun _ _ hw => hw
      rw [hd'] at hfile''
      cases hfile''
      rw [hbearer] at hdc
      cases hdc
      unfold obsolete at hc
      split at hc
      · cases hc
      · rename_i hne
        exact hne hc
    · exact hcompensate _ (by rw [hf]; decide) hfile' rfl (.inr hholds)
    · have hb : φ .binding ≠ .done := by rw [hf]; decide
      refine hcompensate w' hb ((congrFun hservers _).trans hfile') hsecrets (.inl ?_)
      exact (hcompensated hdone hb).2.2.1.resolve_left fun hff => by rw [hf] at hff; cases hff
    · exact absurd hk (hcompensated hdone (by rw [hk]; decide)).1

theorem settles_commit_rename (hP : P.Lawful) (h : Settled w (repositoryId, old.id))
    (hholds : Holds w (repositoryId, old.id) old.endpointUrl s b)
    (halive : (w.secrets s).isSome = true) (hendpoint : old.endpointUrl = input.endpointUrl) :
    Settles (repositoryId, old.id) φ
      (commitUpdate sha repositoryId input fileSha old (some (s, b)) (.bearer s) none) w := by
  have hsettled : ∀ d, mcpServerDefinitionSchema ⟨old.id, input.name, input.endpointUrl, .bearer s⟩ = some d →
      Settled (w.storeServer (repositoryId, old.id) (some d)) (repositoryId, old.id) := by
    intro d hd
    obtain ⟨-, hbearer, hurl⟩ := mcpServerDefinitionSchema_some hd
    obtain ⟨text, htext⟩ := old.reachable
    have hsame : d.endpointUrl = old.endpointUrl := by
      have hagain := hP.url_url htext
      rw [hendpoint] at hagain
      exact Option.some.inj (hurl.symm.trans (hagain.trans (congrArg some hendpoint.symm)))
    exact settled_of_holds (Function.update_self ..) hbearer halive (hsame ▸ hholds)
  have hmove : (moveBinding (repositoryId, old.id) (some (s, b)) old.endpointUrl input.endpointUrl (.bearer s) : Op P Unit) =
      pure () := by
    unfold moveBinding
    dsimp only
    rw [if_neg (not_not_intro hendpoint), if_neg (not_not_intro rfl)]
  have hobsolete : obsolete (some (s, b)) (.bearer s) = none := if_pos rfl
  unfold commitUpdate
  rw [Settles, wp_bind, wp_tryCatch, hmove, hobsolete]
  exact wp_repoUpdate (fun _ => h) h (fun d hd _ => hsettled d hd) fun d hd _ => hsettled d hd

theorem row_ne_next {key : Key} {o : Owner} (hw : w.Sound) {row : BindingRow}
    (hrow : w.bindings.lookup (.server key) = some row) : row.secretId ≠ ⟨w.next, o⟩ := by
  intro heq
  have hlt := hw.stored _ (hw.bound _ row hrow).1
  rw [heq] at hlt
  exact Nat.lt_irrefl _ hlt

theorem settles_update_open (hP : P.Lawful) (hw : w.Sound) (h : Settled w (repositoryId, old.id))
    (hauth : old.authentication = .none) (hwhole : ¬HalfUpdated w (repositoryId, old.id) old input φ) :
    Settles (repositoryId, old.id) φ (do
      let next ← nextAuthentication (repositoryId, old.id) none input
      commitUpdate sha repositoryId input fileSha old none next.1 next.2) w := by
  unfold nextAuthentication
  rw [Settles, wp_bind]
  cases hmode : input.authenticationMode with
  | none => exact settles_commit_open h
  | bearer =>
    rw [HalfUpdated, hauth, hmode] at hwhole
    obtain ⟨hsame, hissued⟩ := not_or.mp hwhole
    dsimp only
    rw [wp_bind]
    refine wp_createSecret h fun credential _ => ?_
    refine settles_commit_issue hP (h.newSecret _ _) hauth (eq_true_of_ne_false hsame) ?_ (unnamed_next h hw _)
      (fun row hrow => row_ne_next hw hrow) hissued
    rw [World.newSecret_secrets, Function.update_self]
    rfl

theorem settles_update_bearer (hP : P.Lawful) (hw : w.Sound) (h : Settled w (repositoryId, old.id))
    (hfile : w.servers (repositoryId, old.id) = some old) (hauth : old.authentication = .bearer s)
    (hholds : Holds w (repositoryId, old.id) old.endpointUrl s b) (hwhole : ¬HalfUpdated w₀ (repositoryId, old.id) old input φ) :
    Settles (repositoryId, old.id) φ (do
      let next ← nextAuthentication (repositoryId, old.id) (some (s, b)) input
      commitUpdate sha repositoryId input fileSha old (some (s, b)) next.1 next.2) w := by
  have halive := (h old s hfile hauth).1
  unfold nextAuthentication
  rw [Settles, wp_bind]
  rw [HalfUpdated, hauth] at hwhole
  cases hmode : input.authenticationMode with
  | none =>
    rw [hmode] at hwhole
    exact settles_commit_clear hP h hauth hholds halive hwhole
  | bearer =>
    rw [hmode] at hwhole
    dsimp only at hwhole
    have hmoved : input.token ≠ none ∨ old.endpointUrl ≠ input.endpointUrl →
        sameTarget P input.endpointUrl = true ∧ ¬HalfMoved φ := by
      intro hm
      obtain ⟨hsame, hhalf⟩ := not_or.mp fun hh => hwhole ⟨hm, hh⟩
      exact ⟨eq_true_of_ne_false hsame, hhalf⟩
    cases htoken : input.token with
    | none =>
      dsimp only
      rw [wp_pure]
      by_cases hendpoint : old.endpointUrl = input.endpointUrl
      · exact settles_commit_rename hP h hholds halive hendpoint
      · obtain ⟨hsame, hhalf⟩ := hmoved (.inr hendpoint)
        exact settles_commit_move hP h hauth hholds halive halive hfile (fun _ hc => by cases hc) (.inl hendpoint) hsame
          hhalf
    | some token =>
      obtain ⟨hsame, hhalf⟩ := hmoved (.inl (by rw [htoken]; exact Option.some_ne_none _))
      have hne : (⟨w.next, .server (repositoryId, old.id)⟩ : SecretId) ≠ s := fun heq =>
        unnamed_next h hw _ old hfile (heq ▸ hauth)
      dsimp only
      rw [wp_bind]
      refine wp_createSecret h fun credential _ => ?_
      have hsettled := h.newSecret (.server (repositoryId, old.id)) credential
      refine settles_commit_move hP hsettled hauth hholds (hsettled old s hfile hauth).1 ?_ hfile ?_ (.inr hne) hsame hhalf
      · rw [World.newSecret_secrets, Function.update_self]
        rfl
      · rintro _ ⟨⟩
        exact ⟨rfl, hne⟩

theorem settles_update (hP : P.Lawful) (hw : w.Sound) (h : Settled w (repositoryId, input.id))
    (hwhole : ¬HalfDone w ⟨.update repositoryId input fileSha, φ⟩) :
    Settles (repositoryId, input.id) φ (updateMcpServer sha repositoryId input fileSha) w := by
  unfold updateMcpServer
  rw [Settles, wp_bind]
  refine (wp_call_ok rfl).mpr ⟨fun _ => ?_, fun _ => h, fun _ => h, fun _ => h⟩
  cases hfile : w.servers (repositoryId, input.id) with
  | none => exact h
  | some old =>
    have hupdated : ¬HalfUpdated w (repositoryId, input.id) old input φ := fun hh => hwhole ⟨old, hfile, hh⟩
    have hid : old.id = input.id := hw.filed _ old hfile
    rw [← hid] at h hfile hupdated ⊢
    dsimp only
    unfold currentAuthority
    rw [wp_bind]
    cases hauth : old.authentication with
    | none => exact settles_update_open hP hw h hauth hupdated
    | bearer s =>
      obtain ⟨b, w₁, hensure, hholds, hservers, hsecrets⟩ := h.ensure hw hfile hauth
      have hfile₁ : w₁.servers (repositoryId, old.id) = some old := (congrFun hservers _).trans hfile
      have hsettled : Settled w₁ (repositoryId, old.id) :=
        settled_of_holds hfile₁ hauth (hsecrets ▸ (h old s hfile hauth).1) hholds
      have hw₁ : w₁.Sound := by
        have hfollows := (follows_ensure old.endpointUrl (Follows.refl hw _) (hw.named _ old s hfile hauth)).1.sound
        rw [hensure] at hfollows
        exact hfollows
      dsimp only
      rw [wp_bind]
      exact (wp_call_ok hensure).mpr ⟨fun _ => settles_update_bearer hP hw₁ hsettled hfile₁ hauth hholds hupdated,
        fun _ => h, fun _ => hsettled, fun _ => h⟩

end Update

/-! ### Deleting -/

section Delete

variable {φ : Fates} {repositoryId : RepositoryId} {id fileSha : String} {w : World P} {old : McpServerDefinition P}
  {s : SecretId} {b : BindingId}

theorem settled_of_deleted {key : Key} (h : w.servers key = none) : Settled w key :=
  settled_of_open fun d hd => by rw [h] at hd; cases hd

/-- The compensation of a deletion settles the server. -/
theorem wp_undelete (hP : P.Lawful) {ret : Unit → World P → Prop} {thr : Failure → World P → Prop}
    (hfile : w.servers (repositoryId, old.id) = none) (hauth : old.authentication = .bearer s)
    (halive : (w.secrets s).isSome = true)
    (hrow : w.bindings.lookup (.server (repositoryId, old.id)) = none ∨
      Holds w (repositoryId, old.id) old.endpointUrl s b)
    (hkept : φ .bindingBack ≠ .killed → (φ .gitBack).lands → φ .bindingBack ≠ .done ∨ φ .gitBack = .lost →
      ¬(φ .retireOld).lands) (hret : ∀ w', Settled w' (repositoryId, old.id) → ret () w') :
    Wp (undelete repositoryId old s b) φ ret thr (fun w' => Settled w' (repositoryId, old.id)) w := by
  have hid : assertIdentity (repositoryId, old.id) = true := assertIdentity_of_definitionId old.identified
  -- the row is as the old file has it, and the file is put back or not
  have hgit : ∀ (authorityRestored : Bool) (w' : World P), φ .bindingBack ≠ .killed →
      (authorityRestored = true ↔ φ .bindingBack = .done) → w'.servers = w.servers → w'.secrets = w.secrets →
      (w'.bindings.lookup (.server (repositoryId, old.id)) = none ∨
        Holds w' (repositoryId, old.id) old.endpointUrl s b) →
      Wp (do
        let gitRestored ← attempt (call .gitBack .unavailable (repoCreate repositoryId old.draft))
        if !authorityRestored || !gitRestored then cleanupSecret .retireOld (some s) : Op P Unit) φ ret thr
        (fun w' => Settled w' (repositoryId, old.id)) w' := by
    intro authorityRestored w' hkilled hrestored hservers hsecrets hrow'
    have hnone : w'.servers (repositoryId, old.id) = none := (congrFun hservers _).trans hfile
    have hc : repoCreate repositoryId old.draft w' =
        (.ok old, w'.storeServer (repositoryId, old.id) (some old)) := by
      have hnone' : w'.servers (repositoryId, old.draft.id) = none := hnone
      rw [repoCreate, hnone', mcpServerDefinitionSchema_draft hP]
      rfl
    have hback : Settled (w'.storeServer (repositoryId, old.id) (some old)) (repositoryId, old.id) :=
      settled_of_row (Function.update_self ..) hauth (hsecrets ▸ halive) hrow'
    rw [wp_bind, wp_attempt_call_ok hc]
    refine ⟨fun hd => ?_, fun _ => ?_, fun hl => ?_, fun _ => settled_of_deleted hnone⟩
    · cases authorityRestored with
      | true => exact hret _ hback
      | false =>
        have hb : φ .bindingBack ≠ .done := fun hb => absurd (hrestored.mpr hb) (by decide)
        rw [Bool.not_false, Bool.true_or, if_pos rfl]
        exact wp_cleanup hback (fun hr => absurd hr (hkept hkilled (.inl hd) (.inl hb))) fun _ _ hw => hret _ hw
    · rw [Bool.not_false, Bool.or_true, if_pos rfl]
      exact wp_cleanup (settled_of_deleted hnone) (fun _ _ d _ hd => by rw [hnone] at hd; cases hd) fun _ _ hw =>
        hret _ hw
    · rw [Bool.not_false, Bool.or_true, if_pos rfl]
      exact wp_cleanup hback (fun hr => absurd hr (hkept hkilled (.inr hl) (.inr hl))) fun _ _ hw => hret _ hw
  obtain ⟨w₁, hc, hholds, hservers, hsecrets⟩ := restore_alive old b hid halive
  unfold undelete
  rw [wp_bind, wp_attempt_call_ok hc]
  refine ⟨fun hf => ?_, fun hf => ?_, fun hf => ?_, fun _ => settled_of_deleted hfile⟩
  · exact hgit true w₁ (by rw [hf]; decide) (by rw [hf]; decide) hservers hsecrets (.inr hholds)
  · exact hgit false w (by rw [hf]; decide) (by rw [hf]; decide) rfl rfl hrow
  · exact hgit false w₁ (by rw [hf]; decide) (by rw [hf]; decide) hservers hsecrets (.inr hholds)

theorem settles_delete_file {α : Type} {key : Key} {rest : Op P α} (h : Settled w key)
    (hrest : φ .git = .done → Settles key φ rest (w.storeServer key none)) :
    Settles key φ (do call .git .unavailable (repoDelete sha key fileSha); rest) w := by
  rw [Settles, wp_bind]
  have hdeleted : Settled (w.storeServer key none) key := settled_of_deleted (Function.update_self ..)
  rcases hc : repoDelete sha key fileSha w with ⟨e | a, w'⟩
  · have hw' : w' = w := by
      unfold repoDelete at hc
      repeat' split at hc
      all_goals cases hc
      all_goals rfl
    subst hw'
    exact (wp_call_error hc).mpr ⟨fun _ => h, fun _ => h, fun _ => h, fun _ => h⟩
  · have hw' : w' = w.storeServer key none := by
      unfold repoDelete at hc
      repeat' split at hc
      all_goals cases hc
      rfl
    subst hw'
    exact (wp_call_ok hc).mpr ⟨hrest, fun _ => h, fun _ => hdeleted, fun _ => h⟩

/-- A deletion settles, unless it is cut in half. -/
theorem settles_delete (hP : P.Lawful) (hw : w.Sound) (h : Settled w (repositoryId, id)) (hwhole : ¬HalfDeleted φ) :
    Settles (repositoryId, id) φ (deleteMcpServer sha repositoryId id fileSha) w := by
  unfold deleteMcpServer
  rw [Settles, wp_bind]
  refine (wp_call_ok rfl).mpr ⟨fun _ => ?_, fun _ => h, fun _ => h, fun _ => h⟩
  cases hfile : w.servers (repositoryId, id) with
  | none => exact h
  | some old =>
    have hid : old.id = id := hw.filed _ old hfile
    subst hid
    dsimp only
    unfold currentAuthority
    rw [wp_bind]
    cases hauth : old.authentication with
    | none => exact settles_delete_file h fun _ => settled_of_deleted (Function.update_self ..)
    | bearer s =>
      have hidentity : assertIdentity (repositoryId, old.id) = true := assertIdentity_of_definitionId old.identified
      obtain ⟨b, w₁, hensure, hholds, hservers, hsecrets⟩ := h.ensure hw hfile hauth
      have halive : (w₁.secrets s).isSome = true := hsecrets ▸ (h old s hfile hauth).1
      have hsettled : Settled w₁ (repositoryId, old.id) :=
        settled_of_holds ((congrFun hservers _).trans hfile) hauth halive hholds
      have hdeleted : (w₁.storeServer (repositoryId, old.id) none).servers (repositoryId, old.id) = none :=
        Function.update_self ..
      have hundelete : ∀ (w' : World P) (e : Failure), φ .git = .done → φ .binding = .failed ∨ φ .binding = .lost →
          w'.servers (repositoryId, old.id) = none → w'.secrets = w₁.secrets →
          (w'.bindings.lookup (.server (repositoryId, old.id)) = none ∨
            Holds w' (repositoryId, old.id) old.endpointUrl s b) →
          Wp (do undelete repositoryId old s b; throw e : Op P Unit) φ
            (fun _ w' => Wp (cleanupSecret .retireOld (some s)) φ (fun _ w' => Settled w' (repositoryId, old.id))
              (fun _ w' => Settled w' (repositoryId, old.id)) (fun w' => Settled w' (repositoryId, old.id)) w')
            (fun _ w' => Settled w' (repositoryId, old.id)) (fun w' => Settled w' (repositoryId, old.id)) w' := by
        intro w' e hd hb hnone hsecrets' hrow
        rw [wp_bind]
        exact wp_undelete hP hnone hauth (hsecrets' ▸ halive) hrow
          (fun hk hg hbad hr => hwhole ⟨hd, hb, hk, hg, hbad, hr⟩) fun _ hw => hw
      dsimp only
      rw [wp_bind]
      refine (wp_call_ok hensure).mpr ⟨fun _ => ?_, fun _ => h, fun _ => hsettled, fun _ => h⟩
      refine settles_delete_file hsettled fun hd => ?_
      dsimp only
      rw [Settles, wp_bind, wp_tryCatch]
      have hholds' : Holds (w₁.storeServer (repositoryId, old.id) none) (repositoryId, old.id) old.endpointUrl s b :=
        hholds
      refine (wp_call_ok (revoke_holds hidentity hholds')).mpr ⟨fun _ => ?_, fun hf => ?_, fun hf => ?_,
        fun _ => settled_of_deleted hdeleted⟩
      · refine wp_cleanup (settled_of_deleted hdeleted) (fun _ _ d _ hd' => ?_) fun _ _ hw => hw
        rw [World.dropRow_servers, hdeleted] at hd'
        cases hd'
      · exact hundelete _ _ hd (.inl hf) hdeleted rfl (.inr hholds)
      · exact hundelete _ _ hd (.inr hf) hdeleted rfl (.inl (AList.lookup_erase _ _))

end Delete

/-! ### Runs -/

section Runs

variable {w : World P} {step : Step} {steps : List Step}

/-- The server the step is about. -/
def Request.key : Request → Key
  | .create repositoryId input | .update repositoryId input _ => (repositoryId, input.id)
  | .delete repositoryId id _ => (repositoryId, id)

theorem follows_step (hw : w.Sound) (step : Step) : Follows (.server step.request.key) w (step.world sha w) := by
  obtain ⟨request, φ⟩ := step
  cases request with
  | create repositoryId input => exact follows_createMcpServer hw φ
  | update repositoryId input fileSha => exact follows_updateMcpServer hw φ
  | delete repositoryId id fileSha => exact follows_deleteMcpServer hw φ

theorem settled_step (hP : P.Lawful) (hw : w.Sound) (h : ∀ key, Settled w key) (hwhole : ¬HalfDone w step) (key : Key) :
    Settled (step.world sha w) key := by
  by_cases hkey : step.request.key = key
  · subst hkey
    obtain ⟨request, φ⟩ := step
    cases request with
    | create repositoryId input => exact (settles_create hP hw (h _) hwhole).world
    | update repositoryId input fileSha => exact (settles_update hP hw (h _) hwhole).world
    | delete repositoryId id fileSha => exact (settles_delete hP hw (h _) hwhole).world
  · exact (h key).follows hw (follows_step hw step) fun heq => hkey (Owner.server.inj heq)

theorem sound_run : ∀ steps, (run sha steps : World P).Sound
  | [] => World.sound_empty
  | step :: earlier => (follows_step (sound_run earlier) step).sound

theorem settled_run (hP : P.Lawful) :
    ∀ {steps : List Step}, (∀ step earlier, step :: earlier <:+ steps → ¬HalfDone (run sha earlier) step) →
      ∀ key, Settled (run sha steps) key
  | [], _, _ => settled_of_deleted rfl
  | step :: earlier, h, key =>
    settled_step hP (sound_run earlier)
      (settled_run hP fun step' earlier' hsuffix => h step' earlier' (hsuffix.trans (List.suffix_cons step earlier)))
      (h step earlier (List.suffix_refl _)) key

/-- **Manageable servers**: after steps none of which is left half done, every server that is defined can be deleted. -/
theorem manageable_run (hP : P.Lawful)
    (h : ∀ step earlier, step :: earlier <:+ steps → ¬HalfDone (run sha earlier) step) :
    Manageable sha (run sha steps) :=
  fun _ _ _ hd => (settled_run hP h _).deleted (sound_run steps) hd

end Runs

/-! ### A server that moves -/

section Moves

def urlOf (hostname : String) : Provider.Url :=
  { protocol := "https:", username := "", password := "", hostname := hostname, port := "", pathname := "/",
    search := "", hash := "" }

/-- A platform that knows two URLs. -/
def twoUrls : Platform where
  parseUrl text :=
    if text = "https://a.example/" then some (urlOf "a.example")
    else if text = "https://b.example/" then some (urlOf "b.example")
    else none
  href url := if url.hostname = "a.example" then "https://a.example/" else "https://b.example/"
  origin url := if url.hostname = "a.example" then "https://a.example" else "https://b.example"
  url text := if text = "https://a.example/" ∨ text = "https://b.example/" then some text else none
  isTimeZone name := name = "UTC"

theorem twoUrls_https {text : String} {url : Provider.Url} (h : twoUrls.parseUrl text = some url) :
    url.protocol = "https:" := by
  simp only [twoUrls] at h
  split at h
  · cases h
    rfl
  · split at h
    · cases h
      rfl
    · cases h

theorem twoUrls_lawful : twoUrls.Lawful where
  url_url := by
    intro text out h
    simp only [twoUrls] at h ⊢
    split at h
    · rename_i hknown
      cases h
      exact if_pos hknown
    · cases h
  origin_origin := by
    intro text url again _ h
    simp only [twoUrls] at h
    split at h <;> simp at h
  parse_href := by
    intro text url h hwss
    rw [twoUrls_https h] at hwss
    exact absurd hwss (by decide)
  url_href := by
    intro text url h hwss
    rw [twoUrls_https h] at hwss
    exact absurd hwss (by decide)

/-- One `sha` for each endpoint. -/
def endpointSha : FileSha twoUrls := ⟨fun d => d.endpointUrl, fun d => d.endpointUrl⟩

def toolkit : RepositoryId := ⟨101, by decide, by decide⟩

def docs (endpointUrl : String) (bearerToken : Option String) (h : bearerToken.all (utf16Length · ≤ 8192) = true) :
    McpServerInput :=
  { id := "docs", name := "Docs", endpointUrl := endpointUrl, authenticationMode := .bearer, bearerToken := bearerToken
    short := h }

def created : Step := ⟨.create toolkit (docs "https://a.example/" (some "token") (by decide)), fun _ => .done⟩

/-- The server is moved, and the call on its binding comes out as `f`. -/
def moved (f : Fate) : Step :=
  ⟨.update toolkit (docs "https://b.example/" none (by decide)) "https://a.example/",
    fun site => if site = .binding then f else .done⟩

theorem created_whole : ¬HalfDone (World.empty : World twoUrls) created := by
  rintro ⟨-, hsame | hhalf⟩
  · exact absurd hsame (by decide +kernel)
  · exact absurd hhalf (by unfold HalfIssued; decide)

theorem moved_whole (w : World twoUrls) : ¬HalfDone w (moved .failed) := by
  rintro ⟨old, -, hupdated⟩
  have hsame : ¬sameTarget twoUrls (docs "https://b.example/" none (by decide)).endpointUrl = false := by decide +kernel
  unfold HalfUpdated at hupdated
  split at hupdated
  · exact hupdated
  · rcases hupdated with hfalse | hlost | ⟨-, hk, -⟩ | ⟨-, -, -, hstays, -⟩
    · exact hsame hfalse
    · exact absurd hlost.1 (by decide)
    · exact absurd hk (by decide)
    · exact hstays (by decide)
  · rename_i hmode
    cases hmode
  · rcases hupdated with ⟨-, hfalse | hlost | ⟨-, -, hc⟩⟩
    · exact hsame hfalse
    · exact absurd hlost (by decide)
    · exact hc (by unfold Compensated; decide)

/-- A failure that is compensated leaves the server manageable. -/
theorem compensated_manageable : Manageable endpointSha (run endpointSha [moved .failed, created]) := by
  refine manageable_run twoUrls_lawful fun step earlier h => ?_
  rcases List.suffix_cons_iff.mp h with h | h
  · cases h
    exact moved_whole _
  · rcases List.suffix_cons_iff.mp h with h | h
    · cases h
      exact created_whole
    · cases List.suffix_nil.mp h

/-- Killed between the file and the binding, a server can no longer be deleted. -/
theorem killed_unmanageable : ¬Manageable endpointSha (run endpointSha [moved .killed, created]) := by
  intro h
  have hfile : ((run endpointSha [moved .killed, created]).servers (toolkit, "docs")).map (·.endpointUrl) =
      some "https://b.example/" := by decide +kernel
  have hthrown : (deleteMcpServer endpointSha toolkit "docs" "https://b.example/" (fun _ => .done)
      (run endpointSha [moved .killed, created])).1 = .thrown .persistenceFailed := by decide +kernel
  obtain ⟨d, hd, hendpoint⟩ := Option.map_eq_some_iff.mp hfile
  have hdeleted := h toolkit "docs" d hd
  rw [show endpointSha.server d = "https://b.example/" from hendpoint, hthrown] at hdeleted
  cases hdeleted

end Moves

end ADT.Bindings
