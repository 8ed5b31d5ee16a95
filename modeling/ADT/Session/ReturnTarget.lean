import ADT.Lib.UrlReference

/-!
# Session.ReturnTarget — where a sign-in leads back to

`safeReturnTo` of `lib/auth-core.ts`, and its way through the sign-in: the start route, `createOAuthStart` and
`consumeOAuthState` of `lib/auth.ts` each apply it.
-/

namespace ADT.Session

open UrlReference

/-- `https://artifact-dev-toolkit.local` -/
def internalOrigin : Origin := ⟨"artifact-dev-toolkit.local", none⟩

section ReturnTo

variable (authority : List Char → Option Origin)

/-- The checks of the decoded text. -/
def isLocalReference (decoded : List Char) : Bool :=
  "/".toList.isPrefixOf decoded && !"//".toList.isPrefixOf decoded &&
    !(decoded.contains '\\' || decoded.contains '\x00') &&
    !("/auth/".toList.isPrefixOf decoded || "/sign-in".toList.isPrefixOf decoded)

def safeReturnTo (value : Option String) : String :=
  match value with
  | none => "/"
  | some value =>
    if value = "" then "/"
    else
      match decodeURIComponent value.toList with
      | none => "/"
      | some decoded =>
        if !isLocalReference decoded then "/"
        else
          match resolve authority internalOrigin decoded with
          | none => "/"
          | some parsed => if parsed.origin ≠ internalOrigin then "/" else String.ofList parsed.target

/-- The cookies of a sign-in. -/
structure CookieJar where
  state : Option String
  returnTo : Option String
  pkce : Option String

structure OAuthState where
  valid : Bool
  returnTo : String
  pkceVerifier : Option String

def constantTimeEqual (left right : Option String) : Bool :=
  match left, right with
  | some left, some right => left ≠ "" && right ≠ "" && left == right
  | _, _ => false

/-- `createOAuthStart`, of a new state and a new verifier. -/
def createOAuthStart (state verifier : String) (returnTo : Option String) : CookieJar where
  state := some state
  returnTo := some (safeReturnTo authority returnTo)
  pkce := some verifier

/-- The start route, with what its request carries as `returnTo`. -/
def oauthStartRoute (state verifier : String) (returnTo : Option String) : CookieJar :=
  createOAuthStart authority state verifier (some (safeReturnTo authority returnTo))

def consumeOAuthState (state : Option String) (jar : CookieJar) : OAuthState × CookieJar :=
  ({ valid := constantTimeEqual state jar.state && jar.pkce.any (· ≠ "")
     returnTo := safeReturnTo authority jar.returnTo
     pkceVerifier := jar.pkce },
    { state := none, returnTo := none, pkce := none })

/-- The target that a sign-in ends with, of the value that its start was asked for. -/
def signInTarget (state verifier : String) (answered returnTo : Option String) : String :=
  (consumeOAuthState authority answered (oauthStartRoute authority state verifier returnTo)).1.returnTo

/-! ### Targets on the site -/

/-- Read as a reference, the target is a URL of the origin it is read at. -/
def StaysOnSite (target : String) : Prop :=
  ∀ origin, ∃ url, resolve authority origin target.toList = some url ∧ url.origin = origin

/-- The value passes the checks, and `rest` is what follows the slash of its path. -/
def Passes (value : Option String) (rest : List Char) : Prop :=
  ∃ text decoded named, value = some text ∧ decodeURIComponent text.toList = some decoded ∧ isLocalReference decoded ∧
    splitReference decoded = some (named, rest) ∧ named.elim (some internalOrigin) authority = some internalOrigin

/-- The value passes the checks, and as it is written its path brings an empty segment to the front. -/
def Doubles (value : Option String) : Prop :=
  ∃ rest, Passes authority value rest ∧ Surfaces (segments (pathText rest))

variable {authority}

theorem staysOnSite_root : StaysOnSite authority "/" :=
  fun _ => resolve_path fun c hc => by simp at hc

theorem safeReturnTo_of_passes {value : Option String} {rest : List Char} (h : Passes authority value rest) :
    safeReturnTo authority value = String.ofList (readPath internalOrigin rest).target := by
  obtain ⟨text, decoded, named, rfl, hdecoded, hlocal, hsplit, horigin⟩ := h
  have hne : text ≠ "" := by
    rintro rfl
    cases hdecoded
    exact absurd hlocal (by decide)
  have hresolve : resolve authority internalOrigin decoded = some (readPath internalOrigin rest) := by
    rw [resolve, hsplit]
    show (named.elim (some internalOrigin) authority).bind (fun origin => some (readPath origin rest)) = _
    rw [horigin]
    rfl
  have hown : ¬ (readPath internalOrigin rest).origin ≠ internalOrigin := fun h => h rfl
  unfold safeReturnTo
  dsimp only
  rw [if_neg hne, hdecoded]
  dsimp only
  rw [hlocal, if_neg (by decide), hresolve]
  dsimp only
  rw [if_neg hown]

theorem safeReturnTo_of_not_passes {value : Option String} (h : ∀ rest, ¬ Passes authority value rest) :
    safeReturnTo authority value = "/" := by
  unfold safeReturnTo
  split
  · rfl
  · rename_i text
    split
    · rfl
    · split
      · rfl
      · rename_i decoded hdecoded
        split
        · rfl
        · rename_i hlocal
          split
          · rfl
          · rename_i parsed hparsed
            obtain ⟨parts, hsplit, hparsed⟩ := Option.bind_eq_some_iff.mp hparsed
            obtain ⟨origin, horigin, hparsed⟩ := Option.bind_eq_some_iff.mp hparsed
            cases hparsed
            refine if_pos fun hown => h parts.2 ⟨text, decoded, parts.1, rfl, hdecoded, by simpa using hlocal, hsplit, ?_⟩
            rw [horigin]
            exact congrArg some hown

/-- **One application stays on the site exactly where the value does not bring an empty segment to the front.** -/
theorem safeReturnTo_staysOnSite (value : Option String) :
    StaysOnSite authority (safeReturnTo authority value) ↔ ¬ Doubles authority value := by
  by_cases h : ∃ rest, Passes authority value rest
  · obtain ⟨rest, hrest⟩ := h
    have hclean : (readPath internalOrigin rest).Clean := by
      obtain ⟨_, _, _, _, _, _, hsplit, _⟩ := hrest
      exact readPath_clean (splitReference_plain hsplit)
    have hdoubles : Doubles authority value ↔ Surfaces (segments (pathText rest)) := by
      constructor
      · rintro ⟨rest', hrest', hsurfaces⟩
        obtain ⟨text, decoded, named, rfl, hdecoded, -, hsplit, -⟩ := hrest
        obtain ⟨text', decoded', named', htext, hdecoded', -, hsplit', -⟩ := hrest'
        cases htext
        rw [hdecoded, Option.some.injEq] at hdecoded'
        rw [← hdecoded', hsplit] at hsplit'
        cases hsplit'
        exact hsurfaces
      · intro hsurfaces
        exact ⟨rest, hrest, hsurfaces⟩
    rw [safeReturnTo_of_passes hrest, hdoubles, ← @readPath_front internalOrigin rest, StaysOnSite,
      String.toList_ofList]
    exact target_stays_iff hclean
  · have hnone : ∀ rest, ¬ Passes authority value rest := fun rest hrest => h ⟨rest, hrest⟩
    rw [safeReturnTo_of_not_passes hnone]
    exact iff_of_true staysOnSite_root fun hdoubles => hdoubles.elim fun rest hrest => hnone rest hrest.1

/-- **The target of `safeReturnTo` and the one of a whole sign-in stay on the site** exactly where neither the value nor
the cookie that the last application reads brings an empty segment to the front of its path. -/
theorem return_targets_stay_iff (authority : List Char → Option Origin) (state verifier value : String)
    (answered : Option String) :
    (StaysOnSite authority (safeReturnTo authority (some value)) ∧
        StaysOnSite authority (signInTarget authority state verifier answered (some value))) ↔
      ¬ Doubles authority (some value) ∧
        ¬ Doubles authority (oauthStartRoute authority state verifier (some value)).returnTo :=
  and_congr (safeReturnTo_staysOnSite _) (safeReturnTo_staysOnSite _)

end ReturnTo

/-- A host without credentials and without a port. -/
def plainHost (cs : List Char) : Option Origin := if cs = [] then none else some ⟨String.ofList cs, none⟩

/-- A segment of one dot before an empty one, once as it stands and once under three more encodings. -/
theorem return_targets_leave_the_site : ¬ StaysOnSite plainHost (safeReturnTo plainHost (some "/.//evil.example")) ∧
      ¬ StaysOnSite plainHost (signInTarget plainHost "s" "v" (some "s") (some "/%2525252e//evil.example")) := by
  have once : safeReturnTo plainHost (some "/.//evil.example") = "//evil.example" := by decide +kernel
  have thrice : signInTarget plainHost "s" "v" (some "s") (some "/%2525252e//evil.example") = "//evil.example" := by
    decide +kernel
  have hleaves : ¬ StaysOnSite plainHost "//evil.example" := by
    intro h
    obtain ⟨url, hurl, horigin⟩ := h ⟨"app.example", none⟩
    have hevil : (resolve plainHost ⟨"app.example", none⟩ "//evil.example".toList).map (·.origin) =
        some ⟨"evil.example", none⟩ := by decide +kernel
    rw [hurl, Option.map_some, horigin] at hevil
    exact absurd hevil (by decide)
  rw [once, thrice]
  exact ⟨hleaves, hleaves⟩

end ADT.Session
