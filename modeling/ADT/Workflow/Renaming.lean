import ADT.Lib.JsonSize
import ADT.Workflow.Preservation

/-!
# Workflow.Renaming — the references in an expanded configuration

An expansion makes the references of an agent to other nodes to their execution ids.  The configuration stays one its
block accepts, since execution ids are ids of definitions.
-/

namespace ADT

/-! ### Replaced properties -/

namespace Json

variable {j : Json} {k k' : String} {f : Json → Json}

theorem get?_setField : (j.setField k f).get? k' = (j.get? k').map (if k' = k then f else id) := by
  cases j with
  | obj fields =>
    show (((fields.map _).find? _).map _) = ((fields.find? _).map _).map _
    have hkey : (fun p : String × Json => p.1 == k') ∘ (fun p => if p.1 == k then (p.1, f p.2) else p) =
        fun p => p.1 == k' := by
      funext p
      show ((if p.1 == k then (p.1, f p.2) else p).1 == k') = (p.1 == k')
      split <;> rfl
    rw [List.find?_map, hkey]
    cases hfind : fields.find? (·.1 == k') with
    | none => rfl
    | some p =>
      have hp : p.1 = k' := by simpa using List.find?_some hfind
      subst hp
      by_cases hk : p.1 = k
      · simp [hk]
      · simp [hk]
  | _ => rfl

theorem get?_setField_self : (j.setField k f).get? k = (j.get? k).map f := by
  rw [get?_setField, if_pos rfl]

theorem get?_setField_of_ne (h : k' ≠ k) : (j.setField k f).get? k' = j.get? k' := by
  rw [get?_setField, if_neg h, Option.map_id, id]

theorem strictKeys_setField (keys : List String) : (j.setField k f).strictKeys keys = j.strictKeys keys := by
  cases j with
  | obj fields =>
    show (fields.map _).all _ = fields.all _
    rw [List.all_map]
    congr 1
    funext p
    by_cases hk : p.1 = k
    · simp [hk]
    · simp [hk]
  | _ => rfl

end Json

namespace Workflow

open WorkflowDefinitionV2 (isContextAgent selectedOutputs publishesOutput conversationSource)

/-! ### Execution ids -/

theorem matchDefinitionId_hex {cs : List Char} (h : ∀ c ∈ cs, c ∈ "0123456789abcdef".toList) (hne : cs ≠ []) (last : Bool) :
    matchDefinitionId last cs = true := by
  induction cs generalizing last with
  | nil => exact absurd rfl hne
  | cons c cs ih =>
    have hc : (('a' ≤ c && c ≤ 'z') || ('0' ≤ c && c ≤ '9')) = true := by
      have hall : ("0123456789abcdef".toList.all fun c => ('a' ≤ c && c ≤ 'z') || ('0' ≤ c && c ≤ '9')) = true := by decide
      exact List.all_eq_true.mp hall c (h c List.mem_cons_self)
    rw [matchDefinitionId, if_pos hc]
    by_cases hcs : cs = []
    · rw [hcs]
      rfl
    · exact ih (fun c hc => h c (List.mem_cons_of_mem _ hc)) hcs true

theorem hexDigits_spec {hash : ℕ} (h : hash < 2 ^ 32) :
    (hexDigits hash).toList.length = 8 ∧ ∀ c ∈ (hexDigits hash).toList, c ∈ "0123456789abcdef".toList := by
  have hlen : (Nat.toDigits 16 hash).length ≤ 8 := (Nat.length_toDigits_le_iff (by decide) (by decide)).mpr (by omega)
  rw [hexDigits, String.toList_ofList]
  refine ⟨?_, fun c hc => ?_⟩
  · rw [List.length_append, List.length_replicate]
    omega
  · rcases List.mem_append.mp hc with hc | hc
    · rw [List.eq_of_mem_replicate hc]
      decide
    · obtain ⟨d, hd, rfl⟩ := digitChar_of_mem_toDigits (by decide) hash c hc
      have hdigits : ∀ d < 16, Nat.digitChar d ∈ "0123456789abcdef".toList := by decide
      exact hdigits d hd

theorem foldl_hash_lt (seed : ℕ) (h : seed < 2 ^ 32) (bytes : List UInt8) :
    bytes.foldl (fun hash byte => (hash ^^^ byte.toNat) * 16777619 % 2 ^ 32) seed < 2 ^ 32 := by
  induction bytes generalizing seed with
  | nil => exact h
  | cons byte bytes ih => exact ih _ (Nat.mod_lt _ (by decide))

theorem stableDigest_spec (value : String) :
    (stableDigest value).toList.length = 32 ∧ ∀ c ∈ (stableDigest value).toList, c ∈ "0123456789abcdef".toList := by
  unfold stableDigest
  generalize value.toList.flatMap String.utf8EncodeChar = bytes
  have h₁ := hexDigits_spec (foldl_hash_lt 2166136261 (by decide) bytes)
  have h₂ := hexDigits_spec (foldl_hash_lt 2246822507 (by decide) bytes)
  have h₃ := hexDigits_spec (foldl_hash_lt 3266489909 (by decide) bytes)
  have h₄ := hexDigits_spec (foldl_hash_lt 668265263 (by decide) bytes)
  simp only [List.map_cons, List.map_nil, String.join_cons, String.join_nil, String.toList_append, String.append_empty,
    List.length_append, List.mem_append]
  refine ⟨by omega, fun c hc => ?_⟩
  rcases hc with hc | hc | hc | hc
  · exact h₁.2 c hc
  · exact h₂.2 c hc
  · exact h₃.2 c hc
  · exact h₄.2 c hc

theorem definitionId_scopedId (kind : IdKind) (segments : List String) : definitionId (scopedId kind segments) = true := by
  obtain ⟨hlength, hhex⟩ := stableDigest_spec (pathKey segments)
  have hlist : (scopedId kind segments).toList = ("sw" ++ kind.letter ++ "-").toList ++
    (stableDigest (pathKey segments)).toList :=
    String.toList_append
  have hne : (stableDigest (pathKey segments)).toList ≠ [] := by
    intro hnil
    rw [hnil] at hlength
    cases hlength
  have hfront : ∃ c, ("sw" ++ kind.letter ++ "-").toList = ['s', 'w', c, '-'] ∧
      ∀ cs, matchDefinitionId false ('s' :: 'w' :: c :: '-' :: cs) = matchDefinitionId false cs := by
    cases kind with
    | n => exact ⟨'n', by decide, fun cs => (by simp [matchDefinitionId])⟩
    | e => exact ⟨'e', by decide, fun cs => (by simp [matchDefinitionId])⟩
  obtain ⟨c, hc, hmatch⟩ := hfront
  have hsize := utf16Length_le (scopedId kind segments)
  rw [hlist, hc, List.length_append, hlength] at hsize
  rw [definitionId, Bool.and_eq_true, decide_eq_true_eq, hlist, hc]
  refine ⟨?_, hsize.trans (show 2 * (4 + 32) ≤ 80 by decide)⟩
  exact (hmatch _).trans (matchDefinitionId_hex hhex hne false)

theorem definitionId_executionId {id : String} (h : definitionId id = true) (kind : IdKind) (path : List InvocationSegment)
    (workflowId : String) : definitionId (executionId kind path workflowId id) = true := by
  unfold executionId
  split
  · exact h
  · exact definitionId_scopedId _ _

/-! ### References -/

/-- A reference made to an execution id. -/
def renamed (f : String → String) : Json → Json
  | .str id => .str (f id)
  | j => j

def renamedAll (f : String → String) : Json → Json
  | .arr items => .arr (items.map (renamed f))
  | j => j

variable {f : String → String} {j : Json} {node : WorkflowNode} {path : List InvocationSegment} {workflowId : String}

theorem asStr?_renamed : (renamed f j).asStr? = j.asStr?.map f := by
  cases j <;> rfl

theorem mapM_renamed (items : List Json) :
    (items.map (renamed f)).mapM Json.asStr? = (items.mapM Json.asStr?).map (List.map f) := by
  induction items with
  | nil => rfl
  | cons j items ih =>
    rw [List.map_cons, List.mapM_cons, List.mapM_cons, ih, asStr?_renamed]
    cases j.asStr? with
    | none => rfl
    | some id =>
      cases items.mapM Json.asStr? <;> rfl

theorem asStrs?_renamedAll : (renamedAll f j).asStrs? = j.asStrs?.map (List.map f) := by
  cases j with
  | arr items => exact mapM_renamed items
  | _ => rfl

/-- The configuration an agent has after its references were renamed. -/
def renamedConfig (f : String → String) (config : Json) : Json :=
  (config.setField "context" (·.setField "includeNodeOutputs" (renamedAll f))).setField "conversation"
    (·.setField "sourceNodeId" (renamed f))

theorem executionConfig_eq : executionConfig path workflowId node =
    if isContextAgent node then renamedConfig (executionId .n path workflowId) node.config else node.config := rfl

variable (config : Json) {g : Json → Json}

theorem context_renamed : (renamedConfig f config).get? "context" =
    (config.get? "context").map (·.setField "includeNodeOutputs" (renamedAll f)) := by
  rw [renamedConfig, Json.get?_setField_of_ne (by decide), Json.get?_setField_self]

theorem conversation_renamed : (renamedConfig f config).get? "conversation" =
    (config.get? "conversation").map (·.setField "sourceNodeId" (renamed f)) := by
  rw [renamedConfig, Json.get?_setField_self, Json.get?_setField_of_ne (by decide)]

theorem strictKeys_renamed (keys : List String) (config : Json) :
    (renamedConfig f config).strictKeys keys = config.strictKeys keys := by
  rw [renamedConfig, Json.strictKeys_setField, Json.strictKeys_setField]

theorem selectedOutputs_expanded (h : isContextAgent node = true) :
    selectedOutputs (expandedNode path workflowId node) = (selectedOutputs node).map (executionId .n path workflowId) := by
  unfold selectedOutputs expandedNode
  dsimp only
  rw [executionConfig_eq, if_pos h, context_renamed]
  cases node.config.get? "context" with
  | none => rfl
  | some context =>
    rw [Option.map_some, Option.bind_some, Option.bind_some, Json.get?_setField_self]
    cases context.get? "includeNodeOutputs" with
    | none => rfl
    | some outputs =>
      rw [Option.map_some, Option.bind_some, Option.bind_some, asStrs?_renamedAll]
      cases outputs.asStrs? <;> rfl

theorem publishesOutput_expanded : publishesOutput (expandedNode path workflowId node) = publishesOutput node := by
  unfold publishesOutput expandedNode
  dsimp only
  rw [executionConfig_eq]
  split
  · rw [context_renamed]
    cases node.config.get? "context" with
    | none => rfl
    | some context => rw [Option.map_some, Option.bind_some, Option.bind_some, Json.get?_setField_of_ne (by decide)]
  · rfl

theorem conversationSource_expanded : conversationSource (expandedNode path workflowId node) =
    (conversationSource node).map (executionId .n path workflowId) := by
  unfold conversationSource
  show (if node.blockType == "agent" && node.blockVersion == 3 then _ else none) = _
  by_cases hagent : (node.blockType == "agent" && node.blockVersion == 3) = true
  · have hcontext : isContextAgent node = true := by
      rw [Bool.and_eq_true, beq_iff_eq, beq_iff_eq] at hagent
      rw [isContextAgent, hagent.1, hagent.2]
      rfl
    rw [if_pos hagent, if_pos hagent, expandedNode, executionConfig_eq, if_pos hcontext, conversation_renamed]
    cases node.config.get? "conversation" with
    | none => rfl
    | some conversation =>
      rw [Option.map_some, Option.bind_some, Option.bind_some, Json.get?_setField_self]
      cases conversation.get? "sourceNodeId" with
      | none => rfl
      | some source => rw [Option.map_some, Option.bind_some, Option.bind_some, asStr?_renamed]
  · rw [if_neg hagent, if_neg hagent]
    rfl

/-! ### Configurations -/

theorem boolField_setField {k k' : String} (h : k' ≠ k) (fallback : Option Bool) :
    boolField (j.setField k g) k' fallback = boolField j k' fallback := by
  unfold boolField
  rw [Json.get?_setField_of_ne h]

theorem strField_setField {k k' : String} (h : k' ≠ k) (check : String → Bool) :
    strField (j.setField k g) k' check = strField j k' check := by
  unfold strField
  rw [Json.get?_setField_of_ne h]

theorem strField_renamed (check : String → Bool) :
    strField (renamedConfig f config) "agentId" check = strField config "agentId" check := by
  rw [renamedConfig, strField_setField (by decide), strField_setField (by decide)]

theorem optField_renamed {α : Type} {key : String} {schema : Json → Option α} {g : Json → Json} {o : Option α}
    {config : Json} (hget : (renamedConfig f config).get? key = (config.get? key).map g)
    (hschema : ∀ {j a}, schema j = some a → ∃ a', schema (g j) = some a') (h : optField config key schema = some o) :
    ∃ o', optField (renamedConfig f config) key schema = some o' := by
  unfold optField at h ⊢
  rw [hget]
  cases hv : config.get? key with
  | none => exact ⟨none, rfl⟩
  | some j =>
    rw [hv] at h
    obtain ⟨a, ha, -⟩ := Option.map_eq_some_iff.mp h
    obtain ⟨a', ha'⟩ := hschema ha
    exact ⟨some a', congrArg (Option.map some) ha'⟩

section

variable (hf : ∀ id, definitionId id = true → definitionId (f id) = true)

include hf

theorem agentContextSchema_renamed {c : AgentContext} (h : agentContextSchema j = some c) :
    agentContextSchema (j.setField "includeNodeOutputs" (renamedAll f)) =
      some { c with includeNodeOutputs := c.includeNodeOutputs.map f } := by
  have hall : ∀ l : List String, (l.all definitionId && decide (l.length ≤ maxAgentContextSources)) = true →
      ((l.map f).all definitionId && decide ((l.map f).length ≤ maxAgentContextSources)) = true := by
    intro l hl
    rw [Bool.and_eq_true, List.all_eq_true, decide_eq_true_eq] at hl ⊢
    rw [List.length_map]
    refine ⟨fun id hid => ?_, hl.2⟩
    obtain ⟨id', hid', rfl⟩ := List.mem_map.mp hid
    exact hf id' (hl.1 id' hid')
  unfold agentContextSchema at h ⊢
  rw [Json.strictKeys_setField, boolField_setField (by decide), boolField_setField (by decide), Json.get?_setField_self]
  simp only [Option.ite_none_right_eq_some, Option.bind_eq_bind, Option.bind_eq_some_iff] at h ⊢
  obtain ⟨hkeys, publishOutput, hpublish, includeRunInput, hrun, h⟩ := h
  refine ⟨hkeys, publishOutput, hpublish, includeRunInput, hrun, ?_⟩
  cases hv : j.get? "includeNodeOutputs" with
  | none =>
    rw [hv] at h
    simp only [Option.bind_some, Option.ite_none_right_eq_some, Option.some.injEq] at h
    obtain ⟨-, rfl⟩ := h
    rfl
  | some v =>
    rw [hv] at h
    simp only [Option.bind_eq_some_iff, Option.ite_none_right_eq_some, Option.some.injEq] at h
    obtain ⟨l, hl, hids, rfl⟩ := h
    show ((renamedAll f v).asStrs?).bind _ = _
    rw [asStrs?_renamedAll, hl, Option.map_some, Option.bind_some, if_pos (hall l hids)]

variable {config : Json}

theorem agentConversationSchema_renamed {source : String} (h : agentConversationSchema j = some source) :
    agentConversationSchema (j.setField "sourceNodeId" (renamed f)) = some (f source) := by
  unfold agentConversationSchema strField at h ⊢
  obtain ⟨hkeys, hfield⟩ := Option.ite_none_right_eq_some.mp h
  obtain ⟨hread, hid⟩ := Option.filter_eq_some_iff.mp hfield
  obtain ⟨v, hv, hstr⟩ := Option.bind_eq_some_iff.mp hread
  rw [Json.strictKeys_setField, if_pos hkeys, Json.get?_setField_self, hv, Option.map_some, Option.bind_some,
    asStr?_renamed, hstr, Option.map_some, Option.filter_some, if_pos (hf source hid)]

theorem agentV2_renamed {c : BlockConfig} (h : agentBlockV2ConfigSchema config = some c) :
    ∃ c', agentBlockV2ConfigSchema (renamedConfig f config) = some c' := by
  unfold agentBlockV2ConfigSchema at h ⊢
  rw [strictKeys_renamed, strField_renamed]
  simp only [Option.ite_none_right_eq_some, Option.bind_eq_bind, Option.bind_eq_some_iff] at h
  obtain ⟨hstrict, agentId, hagentId, context, hcontext, -⟩ := h
  obtain ⟨context', hcontext'⟩ := optField_renamed (context_renamed _) (⟨_, agentContextSchema_renamed hf ·⟩) hcontext
  rw [if_pos hstrict, hagentId]
  simp only [Option.bind_eq_bind, Option.bind_some, hcontext']
  exact ⟨_, rfl⟩

theorem agentV3_renamed {c : BlockConfig} (h : agentBlockV3ConfigSchema config = some c) :
    ∃ c', agentBlockV3ConfigSchema (renamedConfig f config) = some c' := by
  unfold agentBlockV3ConfigSchema at h ⊢
  rw [strictKeys_renamed, strField_renamed]
  simp only [Option.ite_none_right_eq_some, Option.bind_eq_bind, Option.bind_eq_some_iff] at h
  obtain ⟨hstrict, agentId, hagentId, context, hcontext, conversation, hconversation, -⟩ := h
  obtain ⟨context', hcontext'⟩ := optField_renamed (context_renamed _) (⟨_, agentContextSchema_renamed hf ·⟩) hcontext
  obtain ⟨conversation', hconversation'⟩ :=
    optField_renamed (conversation_renamed _) (⟨_, agentConversationSchema_renamed hf ·⟩) hconversation
  rw [if_pos hstrict, hagentId]
  simp only [Option.bind_eq_bind, Option.bind_some, hcontext', hconversation']
  exact ⟨_, rfl⟩

end

/-- **An expanded configuration** is one its block accepts. -/
theorem validate_expanded {c : BlockConfig} (h : validate node.blockType node.blockVersion node.config = .ok c) :
    ∃ c', validate node.blockType node.blockVersion (executionConfig path workflowId node) = .ok c' := by
  rw [executionConfig_eq]
  split
  · next hagent =>
    rw [isContextAgent, Bool.and_eq_true, beq_iff_eq] at hagent
    obtain ⟨htype, hversion⟩ := hagent
    have hversion' : node.blockVersion = 2 ∨ node.blockVersion = 3 := by simpa using hversion
    have hids : ∀ id, definitionId id = true → definitionId (executionId .n path workflowId id) = true :=
      fun id hid => definitionId_executionId hid .n path workflowId
    obtain ⟨b, hb, hs⟩ := except_bind_ok.mp h
    have hc : b.configSchema node.config = some c := by
      split at hs
      · next hc =>
        cases hs
        exact hc
      · cases hs
    obtain ⟨c', hc'⟩ : ∃ c', b.configSchema (renamedConfig (executionId .n path workflowId) node.config) = some c' := by
      rw [htype] at hb
      rcases hversion' with hv | hv
      · rw [hv] at hb
        cases hb
        exact agentV2_renamed hids hc
      · rw [hv] at hb
        cases hb
        exact agentV3_renamed hids hc
    refine ⟨c', except_bind_ok.mpr ⟨b, hb, ?_⟩⟩
    rw [hc']
  · exact ⟨c, h⟩

end Workflow

end ADT
