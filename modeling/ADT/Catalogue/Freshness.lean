import ADT.Catalogue.Growth

/-!
# Catalogue.Freshness — the snapshots and the catalogues of every run

No snapshot is ever a mixture, and a catalogue that is called fresh or refreshed was the head at its time.  After an
invalidation that has returned true no call returns an older catalogue, where none joins a load that began before it and
none falls back to a snapshot whose generation it could not read.
-/

namespace ADT.Catalogue

open Interleave Artifacts

variable {S : Setting} {strict : Prop}

/-! ### Every answer is survived -/

/-- What is said of an event: a snapshot that was accepted, a load that has ended, a call that has returned, an
invalidation that has returned true. -/
def Happened (S : Setting) (strict : Prop) (w : World) : Event signature → Prop
  | ⟨_, .accept snapshot, _⟩ => Faithful S snapshot
  | ⟨_, .settle _ _ (.ok catalogue), _⟩ =>
    catalogue.cacheState.recent = true → w.HeadSince catalogue.revision catalogue.refreshedAt
  | ⟨t, .returned reply, _⟩ => strict → ∃ d, w.due t = some d ∧ w.Covers reply.revision d
  | ⟨t, .log .invalidated, _⟩ => ∃ o, w.opened t = some o
  | _ => True

def knowledge (S : Setting) (strict : Prop) : Knowledge (machine S) (Set Fact) where
  Inv w := w.Consistent S strict
  Holds w t known := ∀ f ∈ known, f.Holds strict w t
  Did := Happened S strict

/-- The call does not join a load that began before the floor, and does not fall back without its generation. -/
def CarefulAt (known : Set Fact) (w : World) : Request → Prop
  | .join process level => ∀ existing, (w.memory process).flight = some existing → level ≤ existing.level →
      ∀ f, w.began existing.promise = some f → w.floor ≤ f
  | .log .staleFallback => .unread ∈ known → w.floor = 0
  | _ => True

section Survives

variable {env : Env} {w w' : World} {t : ℕ} {known : Set Fact} {q : Request} {a : Answer q}

theorem Happened.grows {e : Event signature} (he : Happened S strict w e) (h : w.Grows w') : Happened S strict w' e := by
  obtain ⟨t, q, a⟩ := e
  cases q with
  | accept snapshot => exact he
  | settle process flight result =>
    cases result with
    | ok catalogue => exact fun hrecent => h.headSince (he hrecent)
    | error e => trivial
  | returned reply =>
    intro hs
    obtain ⟨d, hd, hc⟩ := he hs
    exact ⟨d, h.due t d hd, h.covers hc⟩
  | log event =>
    cases event with
    | invalidated =>
      obtain ⟨o, ho⟩ := he
      exact ⟨o, h.opened t o ho⟩
    | _ => trivial
  | _ => trivial

theorem survives_of (hw : w.Consistent S strict) (hknown : ∀ f ∈ known, f.Holds strict w t) (hgrows : w.Grows w')
    (hconsistent : w'.Consistent S strict) (hexpected : reliable S q a)
    (hteaches : ∀ f ∈ teaches known q a, f.Holds strict w' t) (hdoes : Happened S strict w' ⟨t, q, a⟩) :
    (knowledge S strict).Survives (readers S) w t known q a w' where
  expected := hexpected
  inv := hconsistent
  learns f hf := by
    rcases hf with hf | hf
    · exact (hknown f hf).grows hw hgrows
    · exact hteaches f hf
  keeps t' known' _ hknown' f hf := (hknown' f hf).grows hw hgrows
  did e he := he.grows hgrows
  does := hdoes

theorem survives_same (hw : w.Consistent S strict) (hknown : ∀ f ∈ known, f.Holds strict w t)
    (hexpected : reliable S q a) (hteaches : ∀ f ∈ teaches known q a, f.Holds strict w t)
    (hdoes : Happened S strict w ⟨t, q, a⟩) : (knowledge S strict).Survives (readers S) w t known q a w :=
  survives_of hw hknown (World.Grows.refl w) hw hexpected hteaches hdoes

theorem mem_history (w : World) : w.moment ∈ w.history := List.mem_cons_self ..

theorem after_head (hw : w.Consistent S strict) {g : Option ℕ} (hg : (w.bornAt g).isSome = true) :
    w.After w.moment.head g := by
  obtain ⟨e, he⟩ := Option.isSome_iff_exists.mp hg
  refine ⟨e, he, w.moment, mem_history w, rfl, ?_⟩
  cases g with
  | none =>
    cases he
    exact Nat.zero_le _
  | some g => exact hw.born g e he

section

variable (hw : w.Consistent S strict) (hknown : ∀ f ∈ known, f.Holds strict w t)

include hw hknown

theorem survives_getBaseRevision :
    (knowledge S strict).Survives (readers S) w t known .getBaseRevision (.ok w.moment.head) w := by
  refine survives_same hw hknown trivial (fun f hf => ?_) trivial
  rcases hf with rfl | ⟨g, rfl, hread⟩ | ⟨time, rfl, hpassed⟩ | ⟨flight, rfl, htaken⟩
  · exact after_head hw rfl
  · exact after_head hw (hknown _ hread)
  · exact ⟨w.moment, mem_history w, rfl, hknown _ hpassed⟩
  · obtain ⟨f, hf⟩ := Option.isSome_iff_exists.mp (hknown _ htaken)
    exact ⟨f, hf, w.moment, mem_history w, rfl, (hw.began flight f hf).trans hw.floor⟩

theorem survives_readGeneration :
    (knowledge S strict).Survives (readers S) w t known (.get .generation) (.ok (w.cache .generation)) w := by
  obtain ⟨e, he, hle⟩ := hw.renewed
  refine survives_same hw hknown ?_ (fun f hf => ?_) trivial
  · cases hg : w.cache .generation with
    | none => trivial
    | some g => trivial
  rcases hf with rfl | ⟨flight, rfl, htaken⟩
  · exact Option.isSome_iff_exists.mpr ⟨e, he⟩
  · obtain ⟨f, hf⟩ := Option.isSome_iff_exists.mp (hknown _ htaken)
    exact ⟨e, f, he, hf, (hw.began flight f hf).trans hle⟩

theorem survives_get (key : Key) :
    (knowledge S strict).Survives (readers S) w t known (.get key) (answer S env (.get key) w).1 w := by
  show (knowledge S strict).Survives (readers S) w t known (.get key)
    (if env.cacheFails then .error () else .ok (w.cache key)) w
  cases env.cacheFails with
  | true =>
    refine survives_same hw hknown trivial (fun f hf => ?_) trivial
    cases key with
    | generation =>
      obtain rfl : f = .unread := hf
      trivial
    | current => cases hf
    | chunk key => cases hf
  | false =>
    cases key with
    | generation => exact survives_readGeneration hw hknown
    | current =>
      show (knowledge S strict).Survives (readers S) w t known (.get .current) (.ok (w.cache .current)) w
      cases hp : w.cache .current with
      | none => exact survives_same hw hknown trivial (fun f hf => by cases hf) trivial
      | some pointer =>
        refine survives_same hw hknown (hw.sound .current pointer hp) (fun f hf => ?_) trivial
        rcases hf with rfl | rfl
        · exact (hw.points pointer hp).1
        · exact (hw.points pointer hp).2
    | chunk key =>
      show (knowledge S strict).Survives (readers S) w t known (.get (.chunk key)) (.ok (w.cache (.chunk key))) w
      cases hc : w.cache (.chunk key) with
      | none => exact survives_same hw hknown trivial (fun f hf => by cases hf) trivial
      | some chunk => exact survives_same hw hknown (hw.sound (.chunk key) chunk hc) (fun f hf => by cases hf) trivial

theorem survives_putGeneration (hopened : .opened ∈ known) :
    (knowledge S strict).Survives (readers S) w t known .putGeneration w.tickets
      { w.issue (.put .generation w.drawn) with drawn := w.drawn + 1 } := by
  have hnew : ∀ ticket, ¬w.Under ticket (.put .generation w.drawn) := fun ticket hu =>
    absurd (hw.drawn ticket w.drawn hu) (lt_irrefl _)
  have hdrawn := consistent_remember hw w.memory (Nat.le_succ w.drawn)
  have hissued : (World.issue { w with drawn := w.drawn + 1 } (.put .generation w.drawn)).Consistent S strict := by
    refine consistent_issue hdrawn (fun key value h => ?_) (fun pointer h => by cases h) (fun key h => by cases h)
      fun g h => ?_
    · obtain ⟨rfl, -⟩ := Write.put.inj h
      trivial
    · obtain ⟨-, hg⟩ := Write.put.inj h
      obtain rfl := eq_of_heq hg
      exact ⟨Nat.lt_succ_self _, hw.fresh _ le_rfl, hnew⟩
  have hgrows : w.Grows { w.issue (.put .generation w.drawn) with drawn := w.drawn + 1 } :=
    { World.Grows.refl w with lands := fun _ _ h => .inl (List.mem_append_left _ h) }
  refine survives_of hw hknown hgrows hissued trivial (fun f hf => ?_) trivial
  obtain rfl : f = .cutting w.tickets := hf
  obtain ⟨o, ho⟩ := Option.isSome_iff_exists.mp (hknown _ hopened)
  exact ⟨o, ho, .inl ⟨w.drawn, List.mem_append_right _ (List.mem_singleton.mpr rfl)⟩⟩

theorem survives_put {key : Key}
    {value : key.Value} (hneeds : requires S known (.put key value)) :
    (knowledge S strict).Survives (readers S) w t known (.put key value) w.tickets (w.issue (.put key value)) := by
  obtain ⟨hsound, hpoints⟩ := hneeds
  refine survives_of hw hknown (grows_issue w _) (consistent_issue hw (fun key' value' h => ?_) (fun pointer h => ?_)
    (fun key' h => by cases h) fun g h => ?_) trivial (fun f hf => by cases hf) trivial
  · obtain ⟨rfl, hv⟩ := Write.put.inj h
    exact eq_of_heq hv ▸ hsound
  · obtain ⟨rfl, hv⟩ := Write.put.inj h
    obtain rfl := eq_of_heq hv
    exact ⟨hknown _ hpoints.2, hknown _ hpoints.1⟩
  · obtain ⟨rfl, -⟩ := Write.put.inj h
    exact hpoints.elim

theorem survives_settled (tickets : List ℕ) :
    (knowledge S strict).Survives (readers S) w t known (.settled tickets)
      (answer S env (.settled tickets) w).1 w := by
  cases hall : (answer S env (.settled tickets) w).1 with
  | false => exact survives_same hw hknown trivial (fun f hf => by cases hf) trivial
  | true =>
    refine survives_same hw hknown trivial (fun f hf => ?_) trivial
    obtain ⟨rfl, ticket, hticket, hcutting⟩ := hf
    obtain ⟨o, ho, hunder⟩ := hknown _ hcutting
    refine ⟨o, ho, hunder.resolve_left ?_⟩
    rintro ⟨g, hg⟩
    have hnone : (!env.cacheFails && tickets.all fun ticket => w.flying.all (·.1 != ticket)) = true := hall
    simp only [Bool.and_eq_true, List.all_eq_true, bne_iff_ne] at hnone
    exact hnone.2 ticket hticket _ hg rfl

theorem survives_distrust (process : ℕ)
    (ht : env.thread = t) : (knowledge S strict).Survives (readers S) w t known (.distrust process) ()
      (answer S env (.distrust process) w).2 := by
  subst ht
  have hremembered := consistent_remember hw (answer S env (.distrust process) w).2.memory (le_refl w.drawn)
  have hconsistent : (answer S env (.distrust process) w).2.Consistent S strict :=
    consistent_invalidating hremembered env.thread
  have hgrows : w.Grows (answer S env (.distrust process) w).2 :=
    { World.Grows.refl w with opened := fun _ _ ho => once_kept env.thread w.moment.epoch ho }
  refine survives_of hw hknown hgrows hconsistent trivial (fun f hf => ?_) trivial
  obtain rfl : f = .opened := hf
  show ((Function.update w.opened env.thread _) env.thread).isSome = true
  rw [Function.update_self]
  rfl

/-- A join keeps what its thread knows. -/
theorem survives_join (process level : ℕ)
    (ht : env.thread = t) (hcare : strict → CarefulAt known w (.join process level)) :
    (knowledge S strict).Survives (readers S) w t known (.join process level) (answer S env (.join process level) w).1
      (answer S env (.join process level) w).2 := by
  subst ht
  have hdue : ∃ d, (w.call env.thread).due env.thread = some d ∧ d ≤ w.floor := by
    refine ⟨_, Function.update_self .., ?_⟩
    cases hd : w.due env.thread with
    | none => exact le_rfl
    | some d => exact hw.due env.thread d hd
  obtain ⟨d, hd, hle⟩ := hdue
  have hcalled := consistent_call hw env.thread
  -- a flight that is new has not begun
  have hnew : ∀ memory : ℕ → Memory, ∀ f ∈ ({.mine w.promises.length, .launched w.promises.length} : Set Fact),
      f.Holds strict { w.call env.thread with promises := w.promises ++ [⟨none, none⟩], memory := memory } env.thread := by
    intro memory f hf
    rcases hf with rfl | rfl
    · refine ⟨d, hd, fun _ f hf => ?_⟩
      have hnone : ((w.promises ++ [⟨none, none⟩])[w.promises.length]?.bind (·.began)) = some f := hf
      rw [List.getElem?_concat_length, Option.bind_some] at hnone
      cases hnone
    · show w.promises.length < (w.promises ++ [(⟨none, none⟩ : Promise)]).length
      simp
  have hopened : ∀ memory : ℕ → Memory,
      World.Consistent S strict { w.call env.thread with promises := w.promises ++ [⟨none, none⟩], memory := memory } := by
    intro memory
    have hp : Promising (w.call env.thread) (w.promises ++ [⟨none, none⟩]) := promising_append (w.call env.thread)
    refine consistent_remember (consistent_promising hcalled hp fun _ flight catalogue hr => .inl ?_) memory
      (le_refl w.drawn)
    exact (bind_append w.promises (·.result) rfl flight).symm.trans hr
  have hgrows : ∀ memory : ℕ → Memory,
      w.Grows { w.call env.thread with promises := w.promises ++ [⟨none, none⟩], memory := memory } := by
    intro memory
    have hp := promising_append w
    exact { World.Grows.refl w with
      promises := hp.length
      began := hp.began
      begins := hp.begins
      results := hp.results
      due := fun _ _ hd => once_kept env.thread w.floor hd }
  simp only [answer, World.join]
  split
  · next existing hexisting =>
    split
    · next hlevel =>
      refine survives_of hw hknown (grows_call w env.thread) hcalled trivial (fun f hf => ?_) trivial
      obtain rfl : f = .mine existing.promise := hf
      exact ⟨d, hd, fun hs f hf => hle.trans (hcare hs existing hexisting hlevel f hf)⟩
    · refine survives_of hw hknown (hgrows _) (hopened _) trivial (fun f hf => ?_) trivial
      exact hnew _ f hf
  · refine survives_of hw hknown (hgrows _) (hopened _) trivial (fun f hf => ?_) trivial
    exact hnew _ f hf

theorem survives_take {flight : ℕ}
    (hlaunched : .launched flight ∈ known) :
    (knowledge S strict).Survives (readers S) w t known (.take flight) ()
      { w with promises := w.promises.modify flight fun p => { p with began := p.began.or (some w.floor) } } := by
  have hp := promising_take w flight
  refine survives_of hw hknown (grows_promising hp) (consistent_promising hw hp fun _ other catalogue hr => .inl ?_) trivial
    (fun f hf => ?_) trivial
  · rw [bind_modify] at hr
    split at hr
    · exact hr
    · exact hr
  · obtain rfl : f = .taken flight := hf
    show ((w.promises.modify flight _)[flight]?.bind (·.began)).isSome = true
    obtain ⟨p, hp⟩ : ∃ p, w.promises[flight]? = some p := ⟨_, List.getElem?_eq_getElem (hknown _ hlaunched)⟩
    rw [bind_modify, if_pos rfl, hp, Option.bind_some]
    cases p.began <;> rfl

end

theorem within_of_vouched (hknown : ∀ f ∈ known, f.Holds strict w t) {flight : ℕ} {revision : String} (hs : strict)
    (h : Vouched known flight revision) : ∃ f, w.began flight = some f ∧ w.Covers revision f := by
  rcases h with h | ⟨g, hafter, hcovers | hexempt⟩
  · exact hknown _ h
  · obtain ⟨e, f, he, hf, hle⟩ := hknown _ hcovers
    obtain ⟨e', he', m, hm, hhead, hepoch⟩ := hknown _ hafter
    obtain rfl := Option.some.inj (he.symm.trans he')
    exact ⟨f, hf, m, hm, hhead, hle.trans hepoch⟩
  · obtain ⟨e, he, m, hm, hhead, -⟩ := hknown _ hafter
    exact ⟨0, hknown _ hexempt hs, m, hm, hhead, Nat.zero_le _⟩

section

variable (hw : w.Consistent S strict) (hknown : ∀ f ∈ known, f.Holds strict w t)

include hw hknown

theorem survives_settle (process flight : ℕ)
    (result : Result) (hneeds : requires S known (.settle process flight result)) :
    (knowledge S strict).Survives (readers S) w t known (.settle process flight result) ()
      (w.settle process flight result) := by
  have hp := promising_settle w flight result
  have hsettled : World.Consistent S strict { w with
      promises := w.promises.modify flight fun p => { p with result := p.result.or (some result) } } := by
    refine consistent_promising hw hp fun hs other catalogue hr => ?_
    rcases settled_cases hr with hr | ⟨rfl, rfl⟩
    · exact .inl hr
    · exact .inr (within_of_vouched hknown hs hneeds.2.1)
  have hdoes : ∀ w', w.Grows w' → Happened S strict w' ⟨t, .settle process flight result, ()⟩ := by
    intro w' hgrows
    cases result with
    | error e => trivial
    | ok catalogue => exact fun hrecent => hgrows.headSince (hknown _ (hneeds.2.2 hrecent))
  unfold World.settle
  dsimp only
  split
  · have hgrows : w.Grows (World.setMemory { w with
        promises := w.promises.modify flight fun p => { p with result := p.result.or (some result) } } process
        { w.memory process with flight := none }) :=
      { World.Grows.refl w with
        promises := hp.length
        began := hp.began
        begins := hp.begins
        results := hp.results }
    exact survives_of hw hknown hgrows (consistent_remember hsettled _ le_rfl) trivial (fun f hf => by cases hf)
      (hdoes _ hgrows)
  · exact survives_of hw hknown (grows_promising hp) hsettled trivial (fun f hf => by cases hf)
      (hdoes _ (grows_promising hp))

theorem survives_returned (reply : Reply)
    (hneeds : Good known reply.revision) :
    (knowledge S strict).Survives (readers S) w t known (.returned reply) () w := by
  refine survives_same hw hknown trivial (fun f hf => by cases hf) fun hs => ?_
  obtain ⟨flight, hmine, hgood⟩ := hneeds
  obtain ⟨d, hd, hle⟩ := hknown _ hmine
  have hwithin : ∃ f, w.began flight = some f ∧ w.Covers reply.revision f := by
    rcases hgood with ⟨catalogue, hgot, hsame⟩ | ⟨-, hvouched⟩
    · exact hsame ▸ hw.settled hs flight catalogue (hknown _ hgot)
    · exact within_of_vouched hknown hs hvouched
  obtain ⟨f, hf, m, hm, hhead, hepoch⟩ := hwithin
  exact ⟨d, hd, m, hm, hhead, (hle hs f hf).trans hepoch⟩

theorem survives_log (event : LogEvent)
    (ht : env.thread = t) (hneeds : requires S known (.log event))
    (hcare : strict → CarefulAt known w (.log event)) :
    (knowledge S strict).Survives (readers S) w t known (.log event) () (answer S env (.log event) w).2 := by
  subst ht
  cases event with
  | invalidated =>
    obtain ⟨o, ho, hrenewed⟩ := hknown _ hneeds
    have hanswer : (answer S env (.log .invalidated) w).2 = { w with floor := max w.floor o } := by
      simp only [answer, ho, Option.getD_some]
    rw [hanswer]
    exact survives_of hw hknown (grows_invalidated w _) (consistent_invalidated hw hrenewed (hw.opened _ o ho)) trivial
      (fun f hf => by cases hf) ⟨o, ho⟩
  | staleFallback =>
    refine survives_same hw hknown trivial (fun f hf => ?_) trivial
    obtain ⟨flight, rfl, htaken, hunread⟩ := hf
    intro hs
    obtain ⟨f, hf⟩ := Option.isSome_iff_exists.mp (hknown _ htaken)
    have hzero : w.floor = 0 := hcare hs hunread
    have hle : f ≤ 0 := hzero ▸ hw.began flight f hf
    rw [hf, Nat.le_zero.mp hle]
  | _ => exact survives_same hw hknown trivial (fun f hf => by cases hf) trivial

/-- **Every answer is survived.** -/
theorem survives_answer (ht : env.thread = t)
    (hneeds : requires S known q) (hcare : strict → CarefulAt known w q) :
    (knowledge S strict).Survives (readers S) w t known q (answer S env q w).1 (answer S env q w).2 := by
  have hquiet : ∀ {q : Request} {a : Answer q}, reliable S q a → teaches known q a = ∅ → Happened S strict w ⟨t, q, a⟩ →
      (knowledge S strict).Survives (readers S) w t known q a w := fun hexpected hnone hdoes =>
    survives_same hw hknown hexpected (fun f hf => by rw [hnone] at hf; cases hf) hdoes
  cases q with
  | now =>
    refine survives_same hw hknown trivial (fun f hf => ?_) trivial
    obtain rfl : f = .passed (w.moment.time - env.lag) := hf
    exact Nat.sub_le _ _
  | getBaseRevision =>
    simp only [answer]
    split
    · exact hquiet trivial rfl trivial
    · exact survives_getBaseRevision hw hknown
  | loadCatalogue revision =>
    simp only [answer]
    split
    · exact hquiet trivial rfl trivial
    · split
      · next catalogue hload => exact hquiet hload rfl trivial
      · exact hquiet trivial rfl trivial
  | get key => exact survives_get hw hknown key
  | put key value => exact survives_put hw hknown hneeds
  | putGeneration => exact survives_putGeneration hw hknown hneeds
  | delete key =>
    obtain rfl : key = .current := hneeds
    exact survives_of hw hknown (grows_issue w _) (consistent_issue hw (fun key' value h => by cases h)
      (fun pointer h => by cases h) (fun key' h => (Write.delete.inj h).symm) fun g h => by cases h) trivial
      (fun f hf => by cases hf) trivial
  | settled tickets => exact survives_settled hw hknown tickets
  | firstRejection => exact hquiet trivial rfl trivial
  | randomUUID =>
    exact survives_of hw hknown (grows_remember w w.memory (w.drawn + 1))
      (consistent_remember hw w.memory (Nat.le_succ _)) trivial (fun f hf => by cases hf) trivial
  | localGeneration process => exact hquiet trivial rfl trivial
  | isInvalidated process => exact hquiet trivial rfl trivial
  | distrust process => exact survives_distrust hw hknown process ht
  | trust process =>
    exact survives_of hw hknown (grows_remember w _ w.drawn) (consistent_remember hw _ (le_refl w.drawn)) trivial
      (fun f hf => by cases hf) trivial
  | join process level => exact survives_join hw hknown process level ht hcare
  | result flight =>
    show (knowledge S strict).Survives (readers S) w t known (.result flight) (w.resultOf flight) w
    rcases hr : w.resultOf flight with _ | e | catalogue
    · exact hquiet trivial rfl trivial
    · exact hquiet trivial rfl trivial
    · refine survives_same hw hknown trivial (fun f hf => ?_) trivial
      obtain rfl : f = .got flight catalogue := hf
      exact hr
  | take flight => exact survives_take hw hknown hneeds
  | settle process flight result => exact survives_settle hw hknown process flight result hneeds
  | log event => exact survives_log hw hknown event ht hneeds hcare
  | accept snapshot => exact hquiet trivial rfl hneeds
  | returned reply => exact survives_returned hw hknown reply hneeds
  | commit revision =>
    exact survives_of hw hknown (grows_pass w le_rfl (Nat.le_succ _)) (consistent_pass hw le_rfl (Nat.le_succ _)) trivial
      (fun f hf => by cases hf) trivial
  | tick milliseconds =>
    exact survives_of hw hknown (grows_pass w (Nat.le_add_right _ _) le_rfl)
      (consistent_pass hw (Nat.le_add_right _ _) le_rfl) trivial (fun f hf => by cases hf) trivial
  | land ticket =>
    obtain ⟨hgrows, hconsistent⟩ := land_survived hw ticket
    exact survives_of hw hknown hgrows hconsistent trivial (fun f hf => by cases hf) trivial

end

end Survives

/-! ### Runs -/

/-- The thread could not read the generation. -/
def couldNotRead (t : ℕ) : Event signature → Bool
  | ⟨t', .get .generation, .error ()⟩ => t' == t
  | _ => false

/-- The call does not join a load that began before an invalidation that has returned true, and once there is one it does
not fall back to a cached snapshot where it could not read the generation. -/
def carefulIn (pool : Processes S) (t : ℕ) : Request → Bool
  | .join process level => (pool.world.memory process).flight.all fun existing => decide (existing.level < level) ||
      (pool.world.began existing.promise).all fun began => decide (pool.world.floor ≤ began)
  | .log .staleFallback => pool.world.floor == 0 || !pool.trace.any (couldNotRead t)
  | _ => true

def careful (S : Setting) (pool : Processes S) : Action (machine S) CatalogueError → Bool
  | .spawn _ => true
  | .run t _ =>
    match pool.threads[t]? with
    | some (.ask q _) => carefulIn pool t q
    | _ => true

/-- What the threads of a pool know is true. -/
abbrev Known (S : Setting) (strict : Prop) (pool : Processes S) : Prop :=
  Pool.Knowing (knowledge S strict) (readers S) ∅ pool

variable {t : ℕ} {pool : Processes S}

theorem couldNotRead_of_teaches {known : Set Fact} {q : Request} {a : Answer q}
    (h : .unread ∈ teaches known q a) : couldNotRead t ⟨t, q, a⟩ = true := by
  cases q with
  | get key =>
    cases key with
    | generation =>
      rcases a with _ | value
      · exact beq_self_eq_true t
      · simp [teaches] at h
    | current => rcases a with _ | _ | pointer <;> simp [teaches] at h
    | chunk key => rcases a with _ | _ | chunk <;> simp [teaches] at h
  | getBaseRevision => rcases a with _ | revision <;> simp [teaches] at h
  | settled tickets => cases a <;> simp [teaches] at h
  | join process level => cases a <;> simp [teaches] at h
  | result flight => rcases a with _ | _ | catalogue <;> simp [teaches] at h
  | log event => cases event <;> simp [teaches] at h
  | _ => simp [teaches] at h

theorem unread_of_ghost {trace : List (Event signature)} (h : .unread ∈ Pool.ghost (readers S) ∅ t trace) :
    ∃ e ∈ trace, couldNotRead t e = true := by
  induction trace with
  | nil => cases h
  | cons e trace ih =>
    obtain ⟨t', q, a⟩ := e
    have hold : .unread ∈ Pool.ghost (readers S) ∅ t trace → ∃ e ∈ (⟨t', q, a⟩ : Event signature) :: trace,
        couldNotRead t e = true := fun h =>
      let ⟨e, he, hread⟩ := ih h
      ⟨e, List.mem_cons_of_mem _ he, hread⟩
    rw [Pool.ghost] at h
    split at h
    swap
    · exact hold h
    next hthread =>
    rcases h with h | h
    · exact hold h
    · exact ⟨_, List.mem_cons_self .., hthread ▸ couldNotRead_of_teaches h⟩

theorem carefulAt_of {q : Request} (h : carefulIn pool t q = true) :
    CarefulAt (Pool.ghost (readers S) ∅ t pool.trace) pool.world q := by
  unfold CarefulAt
  split
  · next process level =>
    intro existing hexisting hlevel f hf
    simp only [carefulIn, hexisting, Option.all_some, hf, Bool.or_eq_true, decide_eq_true_eq] at h
    exact h.resolve_left (Nat.not_lt.mpr hlevel)
  · intro hunread
    obtain ⟨e, he, hread⟩ := unread_of_ghost hunread
    have hany : pool.trace.any (couldNotRead t) = true := List.any_eq_true.mpr ⟨e, he, hread⟩
    simpa only [carefulIn, hany, Bool.not_true, Bool.or_false, beq_iff_eq] using h
  · trivial

/-- **Step.** -/
theorem known_step {a : Action (machine S) CatalogueError} (h : Known S strict pool)
    (ha : Allowed S pool a) (hcare : strict → careful S pool a = true) : Known S strict (pool.step a) := by
  refine Pool.knowing_step h (fun p hp => ?_) fun t env q next hrun hask hneeds => ?_
  · subst hp
    obtain ⟨client, rfl⟩ := ha
    exact keeps_client client
  · subst hrun
    refine survives_answer h.inv (h.holds t) ha hneeds fun hs => ?_
    have hat : (match pool.threads[t]? with
      | some (.ask q _) => carefulIn pool t q
      | _ => true) = true := hcare hs
    rw [hask] at hat
    exact carefulAt_of hat

theorem known_run (S : Setting) (strict : Prop) (time : ℕ) (head : String)
    {actions : List (Action (machine S) CatalogueError)}
    (hr : Pool.Along (fun pool a => Allowed S pool a ∧ (strict → careful S pool a = true))
    (Pool.init (World.initial time head))
      actions) : Known S strict ((Pool.init (World.initial time head) : Processes S).run actions) :=
  Pool.run_invariant (fun _ _ ha h => known_step h ha.1 ha.2) hr
    (Pool.knowing_init (consistent_initial time head) fun _ _ hf => by cases hf)

/-- **Snapshots are never mixed.** In every run of any processes, with writes that take effect late or never and operations
that fail: a snapshot that is accepted is what `loadCatalogue` gives at its revision, and a catalogue that is called fresh or
refreshed was the head of the branch at its time or later. -/
theorem snapshots_unmixed (S : Setting) (time : ℕ) (head : String) {actions : List (Action (machine S) CatalogueError)}
    (hr : Pool.Along (Allowed S) (Pool.init (World.initial time head)) actions) :
    (∀ t snapshot, ⟨t, .accept snapshot, ()⟩ ∈ ((Pool.init (World.initial time head) : Processes S).run actions).trace →
      ∃ catalogue, (S.tree snapshot.revision).bind (loadCatalogue S.services) = some catalogue ∧
        snapshot.entries = storedArtifacts catalogue) ∧
    ∀ t process flight catalogue, ⟨t, .settle process flight (.ok catalogue), ()⟩ ∈
        ((Pool.init (World.initial time head) : Processes S).run actions).trace → catalogue.cacheState.recent = true →
      ∃ m ∈ ((Pool.init (World.initial time head) : Processes S).run actions).world.history,
        m.head = catalogue.revision ∧ catalogue.refreshedAt ≤ m.time := by
  have hknown := known_run S False time head (hr.mono fun _ _ ha => ⟨ha, False.elim⟩)
  refine ⟨fun t snapshot he => ?_, fun t process flight catalogue he hrecent => hknown.did _ he hrecent⟩
  obtain ⟨catalogue, hload, hsame⟩ := Option.map_eq_some_iff.mp (hknown.did _ he)
  exact ⟨catalogue, hload, hsame.symm⟩

/-! ### Runs of two processes -/

namespace Sample

/-- A prompt is at every revision. -/
def setting : Setting where
  services := { Artifacts.Sample.services with sha := fun _ => "0000000" }
  tree _ := some ⟨[("prompts/x.md", Artifacts.Sample.markdown .prompt)], List.nodup_singleton _⟩
  jsonBytes _ := 0
  lower := id

def service (process : ℕ) : Service := ⟨process, ⟨1, "octo", "artifacts", "main", "artifacts"⟩, 60⟩

def ordinary : RefreshOptions := ⟨false, false, false⟩

/-- A client starts, or a thread goes on without a failure. -/
inductive Move
  | start (client : Client)
  | go (thread : ℕ)

def Move.action : Move → Action (machine setting) CatalogueError
  | start client => .spawn (client.program setting)
  | go thread => .run thread ⟨thread, none, false, 0, 0⟩

/-- A thread goes on for a number of requests. -/
def going (thread requests : ℕ) : List Move := List.replicate requests (.go thread)

def after (moves : List Move) : Processes setting :=
  (Pool.init (World.initial 0 "aaaaaaa")).run (moves.map Move.action)

/-- What is stored of the prompt. -/
def snapshot : Snapshot := ⟨"aaaaaaa", 0, [(⟨Artifacts.Sample.metadata .prompt, "body", "prompts/x.md"⟩, "0000000")]⟩

/-- The snapshots that were accepted. -/
def accepted : Event signature → Option (ℕ × Snapshot)
  | ⟨t, .accept snapshot, _⟩ => some (t, snapshot)
  | _ => none

def ended : Event signature → Option (ℕ × ℕ × ℕ × ResolvedCatalogue)
  | ⟨t, .settle process flight (.ok catalogue), _⟩ => some (t, process, flight, catalogue)
  | _ => none

variable {e : Event signature}

theorem accepted_eq {t : ℕ} {snapshot : Snapshot} (h : accepted e = some (t, snapshot)) :
    e = ⟨t, .accept snapshot, ()⟩ := by
  obtain ⟨t', q, a⟩ := e
  cases q with
  | accept snapshot' =>
    cases h
    rfl
  | _ => cases h

theorem ended_eq {t process flight : ℕ} {catalogue : ResolvedCatalogue}
    (h : ended e = some (t, process, flight, catalogue)) : e = ⟨t, .settle process flight (.ok catalogue), ()⟩ := by
  obtain ⟨t', q, a⟩ := e
  cases q with
  | settle process' flight' result =>
    cases result with
    | error e => cases h
    | ok catalogue' =>
      simp only [ended, Option.some.injEq, Prod.mk.injEq] at h
      obtain ⟨rfl, rfl, rfl, rfl⟩ := h
      rfl
  | _ => cases h

theorem along_moves (moves : List Move) {pool : Processes setting} :
    Pool.Along (Allowed setting) pool (moves.map Move.action) := by
  induction moves generalizing pool with
  | nil => trivial
  | cons move rest ih =>
    refine ⟨?_, ih⟩
    cases move with
    | start client => exact ⟨client, rfl⟩
    | go thread => exact rfl

/-- A write takes effect, by a thread of its own. -/
def landing (ticket thread : ℕ) : List Move := [.start (.land ticket), .go thread]

/-- A catalogue is published, and read by another process. -/
def reading : List Move :=
  [.start (.list (service 0) ordinary)] ++ going 0 12 ++ landing 0 1 ++ going 0 5 ++ landing 1 2 ++ going 0 8 ++
    [.start (.list (service 1) ordinary)] ++ going 3 12

end Sample

open Sample in
/-- A catalogue is published by one process, and read by another. -/
theorem snapshots_unmixed_read :
    (∃ catalogue, (setting.tree "aaaaaaa").bind (loadCatalogue setting.services) = some catalogue ∧
      snapshot.entries = storedArtifacts catalogue) ∧
    ∃ m ∈ (after reading).world.history, m.head = "aaaaaaa" ∧ 0 ≤ m.time := by
  have haccepted : (3, snapshot) ∈ (after reading).trace.filterMap accepted := by decide +kernel
  have hended : (3, 1, 1, resolved snapshot .fresh) ∈ (after reading).trace.filterMap ended := by decide +kernel
  obtain ⟨e, he, hsnapshot⟩ := List.mem_filterMap.mp haccepted
  obtain ⟨e', he', hcatalogue⟩ := List.mem_filterMap.mp hended
  rw [accepted_eq hsnapshot] at he
  rw [ended_eq hcatalogue] at he'
  obtain ⟨haccept, hrecent⟩ := snapshots_unmixed setting 0 "aaaaaaa" (along_moves reading)
  exact ⟨haccept 3 snapshot he, hrecent 3 1 1 (resolved snapshot .fresh) he' rfl⟩

end ADT.Catalogue
