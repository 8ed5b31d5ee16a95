import ADT.Lib.Utf8
import ADT.Lib.NetAddress

/-!
# Lib.UrlReference — references that begin with a slash

A reference that begins with `/` is read against a base with a special scheme: spaces at its ends, tabs and newlines
are left out, two slashes lead to an authority, and the segments `.` and `..` are taken out of the path, also where
their dots are percent-encoded.  What origin an authority names is a parameter.
-/

namespace ADT.UrlReference

/-! ### Percent-encoding -/

def hexDigitChar (n : ℕ) : Char := Char.ofNat (if n < 10 then 48 + n else 55 + n)

def percentEncodeByte (b : UInt8) : List Char := ['%', hexDigitChar (b.toNat / 16), hexDigitChar (b.toNat % 16)]

def percentEncode (set : Char → Bool) (cs : List Char) : List Char :=
  cs.flatMap fun c => if set c then (String.utf8EncodeChar c).flatMap percentEncodeByte else [c]

def c0ControlSet (c : Char) : Bool := c.toNat < 0x20 || 0x7E < c.toNat

def fragmentSet (c : Char) : Bool := c0ControlSet c || " \"<>`".toList.contains c

def specialQuerySet (c : Char) : Bool := c0ControlSet c || " \"#<>'".toList.contains c

def pathSet (c : Char) : Bool := c0ControlSet c || " \"#<>?^`\x7b\x7d".toList.contains c

/-- The byte of a `%XX` at the front, and what follows it. -/
def escapedByte : List Char → Option (UInt8 × List Char)
  | '%' :: a :: b :: rest => do
    let high ← hexDigit a
    let low ← hexDigit b
    some (UInt8.ofNat (high * 16 + low), rest)
  | _ => none

def escapedBytes : ℕ → List Char → Option (List UInt8 × List Char)
  | 0, cs => some ([], cs)
  | n + 1, cs => do
    let first ← escapedByte cs
    let others ← escapedBytes n first.2
    some (first.1 :: others.1, others.2)

/-- The number of bytes of the character that begins with `b`, zero where none does. -/
def sequenceLength (b : UInt8) : ℕ :=
  if b < 0x80 then 1 else if b < 0xC0 then 0 else if b < 0xE0 then 2 else if b < 0xF0 then 3 else if b < 0xF8 then 4 else 0

def decodeEscapes : ℕ → List Char → Option (List Char)
  | _, [] => some []
  | 0, _ => none
  | n + 1, c :: cs =>
    if c = '%' then do
      let first ← escapedByte (c :: cs)
      let sequence ← escapedBytes (sequenceLength first.1) (c :: cs)
      let decoded ← sequence.1.toByteArray.utf8DecodeChar? 0
      (decodeEscapes n sequence.2).map (decoded :: ·)
    else (decodeEscapes n cs).map (c :: ·)

/-- `decodeURIComponent`; `none` where it throws. -/
def decodeURIComponent (cs : List Char) : Option (List Char) := decodeEscapes cs.length cs

/-! ### Paths -/

abbrev Segment := List Char

def isSlash (c : Char) : Bool := c == '/' || c == '\\'

/-- The texts between the slashes. -/
def segments : List Char → List Segment
  | [] => [[]]
  | c :: cs => if isSlash c then [] :: segments cs else (segments cs).modifyHead (c :: ·)

def isSingleDot (s : Segment) : Bool := [".", "%2e"].any fun dot => s.map Char.toLower == dot.toList

def isDoubleDot (s : Segment) : Bool :=
  ["..", ".%2e", "%2e.", "%2e%2e"].any fun dots => s.map Char.toLower == dots.toList

/-- A segment that another one follows, on top of the segments left before it. -/
def push (left : List Segment) (s : Segment) : List Segment :=
  if isDoubleDot s then left.tail else if isSingleDot s then left else s :: left

/-- What is left of the segments, the last one on top. -/
def settle (ss : List Segment) : List Segment := ss.foldl push []

/-- The last segment: a dot segment at the end leaves an empty one. -/
def finish (left : List Segment) (s : Segment) : List Segment :=
  if isDoubleDot s then [] :: left.tail else if isSingleDot s then [] :: left else s :: left

def removeDotSegments (ss : List Segment) : List Segment :=
  (finish (settle ss.dropLast) (ss.getLastD [])).reverse

theorem settle_concat (ss : List Segment) (s : Segment) : settle (ss ++ [s]) = push (settle ss) s := by
  rw [settle, List.foldl_append]
  rfl

theorem removeDotSegments_concat (ss : List Segment) (s : Segment) :
    removeDotSegments (ss ++ [s]) = (finish (settle ss) s).reverse := by
  rw [removeDotSegments, List.dropLast_concat, List.getLastD_concat]

/-- No `..` of the segments climbs over what was there before them. -/
def Stays (ss : List Segment) : Prop := ∀ pre s post, ss = pre ++ s :: post → isDoubleDot s → settle pre ≠ []

/-- An empty segment that others follow comes to the front: nothing is left of the segments before it, and no `..`
after it climbs to it. -/
def Surfaces (ss : List Segment) : Prop :=
  ∃ before after, ss = before ++ [] :: after ∧ after ≠ [] ∧ settle before = [] ∧ Stays after

variable {ss left : List Segment} {cs : List Char} {set : Char → Bool}

theorem stays_concat {s : Segment} : Stays (ss ++ [s]) ↔ Stays ss ∧ (isDoubleDot s → settle ss ≠ []) := by
  constructor
  · intro h
    refine ⟨fun pre t post hss => h pre t (post ++ [s]) ?_, h ss s [] rfl⟩
    rw [hss, List.append_assoc, List.cons_append]
  · rintro ⟨hss, hs⟩ pre t post hcut
    rcases List.eq_nil_or_concat post with rfl | ⟨post, u, rfl⟩
    · obtain ⟨rfl, rfl⟩ := List.append_inj' hcut rfl |>.imp_right List.singleton_inj.mp
      exact hs
    · rw [List.concat_eq_append, ← List.cons_append, ← List.append_assoc] at hcut
      exact hss pre t post (List.append_inj' hcut rfl).1

theorem foldl_push_of_stays (bottom : List Segment) (h : Stays ss) : ss.foldl push bottom = settle ss ++ bottom := by
  induction ss using List.reverseRecOn with
  | nil => rfl
  | append_singleton ss s ih =>
    obtain ⟨hss, hs⟩ := stays_concat.mp h
    rw [List.foldl_append, ih hss, settle_concat]
    show push (settle ss ++ bottom) s = push (settle ss) s ++ bottom
    unfold push
    by_cases hd : isDoubleDot s
    · rw [if_pos hd, if_pos hd, List.tail_append_of_ne_nil (hs hd)]
    · rw [if_neg hd, if_neg hd]
      by_cases hsingle : isSingleDot s
      · rw [if_pos hsingle, if_pos hsingle]
      · rw [if_neg hsingle, if_neg hsingle, List.cons_append]

theorem getLast?_tail_of_ne (h : left.tail ≠ []) : left.tail.getLast? = left.getLast? := by
  have hlength : left.length ≠ 1 := by
    intro h1
    obtain ⟨s, rfl⟩ := List.length_eq_one_iff.mp h1
    exact h rfl
  rw [List.getLast?_tail, if_neg hlength]

theorem settle_of_surface {before after : List Segment} (hb : settle before = []) (ha : Stays after) :
    settle (before ++ [] :: after) = settle after ++ [[]] := by
  have hempty : push (settle before) [] = [[]] := by rw [hb]; rfl
  rw [settle, List.foldl_append, List.foldl_cons, ← settle, hempty, foldl_push_of_stays _ ha]

theorem surface_of_settle (h : (settle ss).getLast? = some []) :
    ∃ before after, ss = before ++ [] :: after ∧ settle before = [] ∧ Stays after := by
  induction ss using List.reverseRecOn with
  | nil => cases h
  | append_singleton ss s ih =>
    rw [settle_concat, push] at h
    by_cases hd : isDoubleDot s
    · rw [if_pos hd] at h
      -- what is left under the segment that goes has the same bottom
      have htail : (settle ss).tail ≠ [] := fun h0 => by simp [h0] at h
      have hbottom : (settle ss).getLast? = some [] := by rw [← getLast?_tail_of_ne htail, h]
      obtain ⟨before, after, rfl, hb, ha⟩ := ih hbottom
      refine ⟨before, after ++ [s], by rw [List.append_assoc, List.cons_append], hb, stays_concat.mpr ⟨ha, ?_⟩⟩
      intro _ h0
      rw [settle_of_surface hb ha, h0] at htail
      exact htail rfl
    · rw [if_neg hd] at h
      by_cases hsingle : isSingleDot s
      · rw [if_pos hsingle] at h
        obtain ⟨before, after, rfl, hb, ha⟩ := ih h
        exact ⟨before, after ++ [s], by rw [List.append_assoc, List.cons_append], hb,
          stays_concat.mpr ⟨ha, fun h0 => absurd h0 hd⟩⟩
      · rw [if_neg hsingle] at h
        by_cases h0 : settle ss = []
        · rw [h0] at h
          obtain rfl : s = [] := by simpa using h
          exact ⟨ss, [], rfl, h0, fun pre t post hcut => by simp at hcut⟩
        · rw [List.getLast?_cons_of_ne_nil h0] at h
          obtain ⟨before, after, rfl, hb, ha⟩ := ih h
          exact ⟨before, after ++ [s], by rw [List.append_assoc, List.cons_append], hb,
            stays_concat.mpr ⟨ha, fun hs => absurd hs hd⟩⟩

theorem reverse_front {top : Segment} {kept : List Segment} :
    (∃ s rest, (top :: kept).reverse = [] :: s :: rest) ↔ kept.getLast? = some [] := by
  rw [List.reverse_cons, ← List.head?_reverse]
  cases hk : kept.reverse with
  | nil => simp
  | cons bottom others =>
    simp only [List.cons_append, List.cons.injEq, List.head?_cons, Option.some.injEq]
    constructor
    · rintro ⟨s, rest, hbottom, -⟩
      exact hbottom
    · intro hbottom
      obtain ⟨s, rest, hs⟩ := List.exists_cons_of_ne_nil (List.append_ne_nil_of_right_ne_nil others (List.cons_ne_nil top []))
      exact ⟨s, rest, hbottom, hs⟩

/-- Without its dot segments a path begins with an empty segment before another one exactly where one comes to the
front. -/
theorem removeDotSegments_front (hne : ss ≠ []) : (∃ s rest, removeDotSegments ss = [] :: s :: rest) ↔ Surfaces ss := by
  obtain ⟨init, last, rfl⟩ := (List.eq_nil_or_concat ss).resolve_left hne
  rw [List.concat_eq_append, removeDotSegments_concat]
  have hsplit : Surfaces (init ++ [last]) ↔
      ∃ before after, init = before ++ [] :: after ∧ settle before = [] ∧ Stays (after ++ [last]) := by
    constructor
    · rintro ⟨before, after, hcut, ha, hb, hs⟩
      obtain ⟨after, l, rfl⟩ := (List.eq_nil_or_concat after).resolve_left ha
      rw [List.concat_eq_append, ← List.cons_append, ← List.append_assoc] at hcut
      obtain ⟨hinit, hlast⟩ := List.append_inj' hcut rfl
      obtain rfl := List.singleton_inj.mp hlast
      rw [List.concat_eq_append] at hs
      exact ⟨before, after, hinit, hb, hs⟩
    · rintro ⟨before, after, rfl, hb, hs⟩
      exact ⟨before, after ++ [last], by rw [List.append_assoc, List.cons_append], by simp, hb, hs⟩
  have hsettle : (∃ before after, init = before ++ [] :: after ∧ settle before = [] ∧ Stays (after ++ [last])) ↔
      (settle init).getLast? = some [] ∧ (isDoubleDot last → (settle init).tail ≠ []) := by
    constructor
    · rintro ⟨before, after, rfl, hb, hs⟩
      obtain ⟨ha, hlast⟩ := stays_concat.mp hs
      rw [settle_of_surface hb ha]
      refine ⟨List.getLast?_concat, fun hd => ?_⟩
      rw [List.tail_append_of_ne_nil (hlast hd)]
      exact List.append_ne_nil_of_right_ne_nil _ (List.cons_ne_nil _ _)
    · rintro ⟨hbottom, htail⟩
      obtain ⟨before, after, rfl, hb, ha⟩ := surface_of_settle hbottom
      refine ⟨before, after, rfl, hb, stays_concat.mpr ⟨ha, fun hd h0 => ?_⟩⟩
      rw [settle_of_surface hb ha, h0] at htail
      exact htail hd rfl
  rw [hsplit, hsettle, finish]
  by_cases hd : isDoubleDot last
  · rw [if_pos hd, reverse_front]
    constructor
    · intro h
      have htail : (settle init).tail ≠ [] := fun h0 => by simp [h0] at h
      exact ⟨by rw [← getLast?_tail_of_ne htail, h], fun _ => htail⟩
    · rintro ⟨hbottom, htail⟩
      rw [getLast?_tail_of_ne (htail hd), hbottom]
  · rw [if_neg hd]
    have hsame : ((settle init).getLast? = some [] ∧ (isDoubleDot last → (settle init).tail ≠ [])) ↔
        (settle init).getLast? = some [] := and_iff_left fun h => absurd h hd
    rw [hsame]
    by_cases hsingle : isSingleDot last
    · rw [if_pos hsingle, reverse_front]
    · rw [if_neg hsingle, reverse_front]

/-! ### Reading a reference -/

structure Origin where
  host : String
  port : Option ℕ
  deriving DecidableEq

structure Url where
  origin : Origin
  path : List Segment
  query : Option (List Char)
  fragment : Option (List Char)

/-- A part of a URL behind its mark, nothing where it is empty. -/
def marked (mark : Char) (cs : List Char) : List Char := if cs = [] then [] else mark :: cs

theorem eq_of_mem_head?_marked {mark c : Char} {others : List Char} (h : c ∈ (marked mark cs ++ others).head?) :
    c = mark ∨ c ∈ others.head? := by
  unfold marked at h
  split at h
  · exact .inr h
  · rw [List.cons_append, List.head?_cons, Option.mem_some_iff] at h
    exact .inl h.symm

namespace Url

def pathname (u : Url) : List Char := u.path.flatMap ('/' :: ·)

def search (u : Url) : List Char := marked '?' (u.query.getD [])

def hash (u : Url) : List Char := marked '#' (u.fragment.getD [])

/-- What an application keeps of a URL of its own: `pathname`, `search` and `hash`. -/
def target (u : Url) : List Char := u.pathname ++ u.search ++ u.hash

end Url

def isControlOrSpace (c : Char) : Bool := c.toNat ≤ 0x20

def isTabOrNewline (c : Char) : Bool := c == '\t' || c == '\n' || c == '\r'

/-- The input as the parser reads it. -/
def prepare (cs : List Char) : List Char :=
  ((cs.dropWhile isControlOrSpace).reverse.dropWhile isControlOrSpace).reverse.filter fun c => !isTabOrNewline c

def endsPath (c : Char) : Bool := c == '?' || c == '#'

/-- The authority of a reference that begins with a slash, if it has one, and what follows the slash of its path. -/
def splitReference (cs : List Char) : Option (Option (List Char) × List Char) :=
  match prepare cs with
  | [] => none
  | c :: rest =>
    if !isSlash c then none
    else if !rest.head?.any isSlash then some (none, rest)
    else
      let authority := rest.dropWhile isSlash
      let after := authority.dropWhile fun c => !(isSlash c || endsPath c)
      some (some (authority.takeWhile fun c => !(isSlash c || endsPath c)),
        if after.head?.any isSlash then after.tail else after)

def pathText (cs : List Char) : List Char := cs.takeWhile fun c => !endsPath c

def queryText (cs : List Char) : Option (List Char) :=
  match cs.dropWhile fun c => !endsPath c with
  | [] => none
  | c :: rest => if c = '?' then some (rest.takeWhile (· ≠ '#')) else none

def fragmentText (cs : List Char) : Option (List Char) :=
  match cs.dropWhile (· ≠ '#') with
  | [] => none
  | _ :: rest => some rest

/-- The URL of an origin from what follows the slash of the path. -/
def readPath (origin : Origin) (cs : List Char) : Url where
  origin := origin
  path := (removeDotSegments (segments (pathText cs))).map (percentEncode pathSet)
  query := (queryText cs).map (percentEncode specialQuerySet)
  fragment := (fragmentText cs).map (percentEncode fragmentSet)

section Resolve

variable (authority : List Char → Option Origin) (base : Origin)

/-- The URL a reference that begins with a slash names at `base`; `none` where the parser fails. -/
def resolve (cs : List Char) : Option Url := do
  let parts ← splitReference cs
  let origin ← parts.1.elim (some base) authority
  some (readPath origin parts.2)

end Resolve

/-! ### The target of a URL read again -/

/-- The character stands in a segment: it is no slash and none of those that are left out. -/
def InSegment (c : Char) : Prop := isSlash c = false ∧ isTabOrNewline c = false

theorem hexDigitChar_inSegment {n : ℕ} (h : n < 16) : InSegment (hexDigitChar n) := by
  have hall : ∀ n : Fin 16, isSlash (hexDigitChar n) = false ∧ isTabOrNewline (hexDigitChar n) = false := by decide
  exact hall ⟨n, h⟩

theorem percentEncodeByte_inSegment (b : UInt8) {c : Char} (h : c ∈ percentEncodeByte b) : InSegment c := by
  have hb : b.toNat < 256 := b.toNat_lt
  simp only [percentEncodeByte, List.mem_cons, List.not_mem_nil, or_false] at h
  rcases h with rfl | rfl | rfl
  · exact ⟨rfl, rfl⟩
  · exact hexDigitChar_inSegment (by omega)
  · exact hexDigitChar_inSegment (by omega)

theorem percentEncode_inSegment (h : ∀ c ∈ cs, InSegment c) : ∀ c ∈ percentEncode set cs, InSegment c := by
  intro c hc
  obtain ⟨d, hd, hc⟩ := List.mem_flatMap.mp hc
  by_cases hset : set d
  · rw [if_pos hset] at hc
    obtain ⟨b, -, hb⟩ := List.mem_flatMap.mp hc
    exact percentEncodeByte_inSegment b hb
  · rw [if_neg hset, List.mem_singleton] at hc
    exact hc ▸ h d hd

theorem percentEncode_eq_nil : percentEncode set cs = [] ↔ cs = [] := by
  constructor
  · intro h
    rcases cs with _ | ⟨c, cs⟩
    · rfl
    · rw [percentEncode, List.flatMap_cons, List.append_eq_nil_iff] at h
      by_cases hset : set c
      · rw [if_pos hset] at h
        obtain ⟨b, bytes, hb⟩ := List.exists_cons_of_ne_nil (String.utf8EncodeChar_ne_nil (c := c))
        rw [hb] at h
        simp [percentEncodeByte] at h
      · rw [if_neg hset] at h
        simp at h
  · rintro rfl
    rfl

theorem segments_ne_nil (cs : List Char) : segments cs ≠ [] := by
  induction cs with
  | nil => simp [segments]
  | cons c cs ih =>
    rw [segments]
    split
    · exact List.cons_ne_nil _ _
    · rw [ne_eq, List.modifyHead_eq_nil_iff]
      exact ih

theorem segments_inSegment (h : ∀ c ∈ cs, isTabOrNewline c = false) : ∀ s ∈ segments cs, ∀ c ∈ s, InSegment c := by
  induction cs with
  | nil => simp [segments]
  | cons c cs ih =>
    have hcs := ih fun d hd => h d (List.mem_cons_of_mem _ hd)
    intro s hs
    rw [segments] at hs
    by_cases hc : isSlash c
    · rw [if_pos hc] at hs
      rcases List.mem_cons.mp hs with rfl | hs
      · exact fun d hd => absurd hd List.not_mem_nil
      · exact hcs s hs
    · rw [if_neg hc] at hs
      obtain ⟨first, others, hsplit⟩ := List.exists_cons_of_ne_nil (segments_ne_nil cs)
      rw [hsplit] at hs hcs
      rcases List.mem_cons.mp hs with rfl | hs
      · intro d hd
        rcases List.mem_cons.mp hd with rfl | hd
        · exact ⟨Bool.not_eq_true _ ▸ hc, h _ List.mem_cons_self⟩
        · exact hcs first List.mem_cons_self d hd
      · exact hcs s (List.mem_cons_of_mem _ hs)

theorem mem_push {s t : Segment} (h : t ∈ push left s) : t = s ∨ t ∈ left := by
  unfold push at h
  split at h
  · exact .inr (List.mem_of_mem_tail h)
  · split at h
    · exact .inr h
    · exact List.mem_cons.mp h

theorem mem_settle {t : Segment} (h : t ∈ settle ss) : t ∈ ss := by
  induction ss using List.reverseRecOn with
  | nil => exact h
  | append_singleton ss s ih =>
    rw [settle_concat] at h
    rcases mem_push h with rfl | h
    · exact List.mem_append_right _ List.mem_cons_self
    · exact List.mem_append_left _ (ih h)

theorem mem_finish {s t : Segment} (h : t ∈ finish left s) : t = [] ∨ t = s ∨ t ∈ left := by
  unfold finish at h
  split at h
  · exact (List.mem_cons.mp h).imp_right fun h => .inr (List.mem_of_mem_tail h)
  · split at h
    · exact (List.mem_cons.mp h).imp_right .inr
    · exact .inr (List.mem_cons.mp h)

theorem mem_removeDotSegments {t : Segment} (h : t ∈ removeDotSegments ss) : t = [] ∨ t ∈ ss := by
  rcases List.eq_nil_or_concat ss with rfl | ⟨ss, s, rfl⟩
  · exact .inl (by simpa [removeDotSegments, settle, finish, isDoubleDot, isSingleDot] using h)
  · rw [List.concat_eq_append, removeDotSegments_concat, List.mem_reverse] at h
    rw [List.concat_eq_append]
    rcases mem_finish h with rfl | rfl | h
    · exact .inl rfl
    · exact .inr (List.mem_append_right _ List.mem_cons_self)
    · exact .inr (List.mem_append_left _ (mem_settle h))

theorem removeDotSegments_ne_nil (ss : List Segment) : removeDotSegments ss ≠ [] := by
  rw [removeDotSegments, ne_eq, List.reverse_eq_nil_iff, finish]
  split
  · exact List.cons_ne_nil _ _
  · split <;> exact List.cons_ne_nil _ _

/-- A path as the parser leaves it. -/
structure Url.Clean (u : Url) : Prop where
  path_ne_nil : u.path ≠ []
  inSegment : ∀ s ∈ u.path, ∀ c ∈ s, InSegment c

theorem prepare_plain (cs : List Char) : ∀ c ∈ prepare cs, isTabOrNewline c = false := by
  intro c hc
  have hkept := (List.mem_filter.mp hc).2
  simpa using hkept

theorem dropWhile_plain {p : Char → Bool} (h : ∀ c ∈ cs, isTabOrNewline c = false) :
    ∀ c ∈ cs.dropWhile p, isTabOrNewline c = false :=
  fun c hc => h c ((List.dropWhile_sublist p).mem hc)

theorem splitReference_plain {parts : Option (List Char) × List Char}
    (h : splitReference cs = some parts) : ∀ c ∈ parts.2, isTabOrNewline c = false := by
  have hcs := prepare_plain cs
  unfold splitReference at h
  rcases hprepared : prepare cs with _ | ⟨c, rest⟩ <;> rw [hprepared] at h hcs
  · cases h
  · have hrest : ∀ d ∈ rest, isTabOrNewline d = false := fun d hd => hcs d (List.mem_cons_of_mem _ hd)
    dsimp only at h
    split at h
    · cases h
    · split at h
      · cases h
        exact hrest
      · cases h
        have hafter := dropWhile_plain (p := fun c => !(isSlash c || endsPath c)) (dropWhile_plain (p := isSlash) hrest)
        dsimp only
        split
        · exact fun d hd => hafter d (List.mem_of_mem_tail hd)
        · exact hafter

theorem readPath_clean {origin : Origin} (h : ∀ c ∈ cs, isTabOrNewline c = false) : (readPath origin cs).Clean where
  path_ne_nil := by
    rw [readPath, ne_eq, List.map_eq_nil_iff]
    exact removeDotSegments_ne_nil _
  inSegment := by
    intro s hs
    obtain ⟨t, ht, rfl⟩ := List.mem_map.mp hs
    have htext : ∀ c ∈ pathText cs, isTabOrNewline c = false := fun c hc => h c ((List.takeWhile_sublist _).mem hc)
    rcases mem_removeDotSegments ht with rfl | ht
    · exact percentEncode_inSegment fun c hc => absurd hc List.not_mem_nil
    · exact percentEncode_inSegment (segments_inSegment htext t ht)

/-- The path of what is read begins with an empty segment before another one where one comes to the front. -/
theorem readPath_front {origin : Origin} {cs : List Char} :
    (∃ s rest, (readPath origin cs).path = [] :: s :: rest) ↔ Surfaces (segments (pathText cs)) := by
  rw [← removeDotSegments_front (segments_ne_nil _)]
  show (∃ s rest, (removeDotSegments (segments (pathText cs))).map (percentEncode pathSet) = [] :: s :: rest) ↔ _
  rcases removeDotSegments (segments (pathText cs)) with _ | ⟨first, _ | ⟨second, others⟩⟩
  · simp
  · simp
  · simp [percentEncode_eq_nil]

section Again

variable {authority : List Char → Option Origin}

theorem prepare_slash (cs : List Char) : ∃ kept dropped, cs = kept ++ dropped ∧ (∀ c ∈ dropped, isControlOrSpace c) ∧
    prepare ('/' :: cs) = '/' :: kept.filter fun c => !isTabOrNewline c := by
  have hfront : ('/' :: cs).dropWhile isControlOrSpace = '/' :: cs := by
    rw [List.dropWhile_cons, if_neg (by decide)]
  have hcut := List.takeWhile_append_dropWhile (p := isControlOrSpace) (l := ('/' :: cs).reverse)
  set back := ('/' :: cs).reverse.takeWhile isControlOrSpace with hback
  set front := ('/' :: cs).reverse.dropWhile isControlOrSpace with hfrontDef
  have hall : ∀ c ∈ back.reverse, isControlOrSpace c := fun c hc =>
    List.all_eq_true.mp List.all_takeWhile c (List.mem_reverse.mp hc)
  have hjoin : '/' :: cs = front.reverse ++ back.reverse := by
    rw [← List.reverse_append, hcut, List.reverse_reverse]
  -- the slash itself is no control character, so it is kept
  rcases hkept : front.reverse with _ | ⟨c, kept⟩
  · rw [hkept, List.nil_append] at hjoin
    have hslash := hall '/' (hjoin ▸ List.mem_cons_self)
    exact absurd hslash (by decide)
  · rw [hkept, List.cons_append, List.cons.injEq] at hjoin
    refine ⟨kept, back.reverse, hjoin.2, hall, ?_⟩
    rw [prepare, hfront, ← hfrontDef, hkept, ← hjoin.1]
    rfl

theorem resolve_path {base : Origin} {cs : List Char} (h : ∀ c ∈ cs.head?, InSegment c) :
    ∃ u, resolve authority base ('/' :: cs) = some u ∧ u.origin = base := by
  obtain ⟨kept, dropped, rfl, -, hprepare⟩ := prepare_slash cs
  have hhead : ((kept.filter fun c => !isTabOrNewline c).head?.any isSlash) = false := by
    rcases kept with _ | ⟨c, kept⟩
    · rfl
    · obtain ⟨hslash, htab⟩ := h c rfl
      rw [List.filter_cons_of_pos (by rw [htab]; rfl)]
      exact hslash
  refine ⟨readPath base (kept.filter fun c => !isTabOrNewline c), ?_, rfl⟩
  have hsplit : splitReference ('/' :: (kept ++ dropped)) = some (none, kept.filter fun c => !isTabOrNewline c) := by
    unfold splitReference
    rw [hprepare]
    dsimp only
    rw [if_neg (by decide), if_pos (by rw [hhead]; rfl)]
  rw [resolve, hsplit]
  rfl

theorem resolve_doubled (cs : List Char) : ∃ named : List Char × List Char, ∀ base, resolve authority base ('/' :: '/' :: cs) =
    (authority named.1).map fun origin => readPath origin named.2 := by
  obtain ⟨kept, dropped, hcut, hdropped, hprepare⟩ := prepare_slash ('/' :: cs)
  rcases kept with _ | ⟨c, kept⟩
  · rw [List.nil_append] at hcut
    have hslash := hdropped '/' (hcut ▸ List.mem_cons_self)
    exact absurd hslash (by decide)
  · obtain ⟨rfl, -⟩ := List.cons.injEq .. ▸ hcut
    rw [List.filter_cons_of_pos (by decide)] at hprepare
    have hsplit : ∃ named : List Char × List Char, splitReference ('/' :: '/' :: cs) = some (some named.1, named.2) := by
      unfold splitReference
      rw [hprepare]
      dsimp only
      rw [if_neg (by decide), if_neg (by rw [List.head?_cons, Option.any_some]; decide)]
      exact ⟨(_, _), rfl⟩
    obtain ⟨named, hnamed⟩ := hsplit
    refine ⟨named, fun base => ?_⟩
    rw [resolve, hnamed]
    show (authority named.1).bind (fun origin => some (readPath origin named.2)) = _
    rw [Option.map_eq_bind]
    rfl

/-- **A target stays at every base exactly where its path does not begin with an empty segment before another one.** -/
theorem target_stays_iff {u : Url} (hu : u.Clean) :
    (∀ base, ∃ v, resolve authority base u.target = some v ∧ v.origin = base) ↔ ¬ ∃ s rest, u.path = [] :: s :: rest := by
  obtain ⟨first, others, hpath⟩ := List.exists_cons_of_ne_nil hu.path_ne_nil
  constructor
  · rintro h ⟨s, rest, hdoubled⟩
    have htarget : ∃ cs, u.target = '/' :: '/' :: cs := by
      rw [Url.target, Url.pathname, hdoubled]
      exact ⟨_, rfl⟩
    obtain ⟨cs, hcs⟩ := htarget
    obtain ⟨named, hnamed⟩ := @resolve_doubled authority cs
    -- one origin is named, and two bases are not the same
    obtain ⟨v, hv, hv'⟩ := h ⟨"", none⟩
    obtain ⟨w, hw, hw'⟩ := h ⟨"", some 0⟩
    rw [hcs, hnamed] at hv hw
    rw [hv, Option.some.injEq] at hw
    rw [hw, hw'] at hv'
    cases hv'
  · intro h base
    have hrest : ∃ cs, u.target = '/' :: cs ∧ ∀ c ∈ cs.head?, InSegment c := by
      refine ⟨first ++ (others.flatMap ('/' :: ·) ++ u.search ++ u.hash), ?_, ?_⟩
      · rw [Url.target, Url.pathname, hpath]
        simp
      · intro c hc
        rcases first with _ | ⟨d, first⟩
        · rcases others with _ | ⟨s, others⟩
          · have hsearch : c = '?' ∨ c = '#' := by
              rw [List.flatMap_nil, List.nil_append, List.nil_append, ← List.append_nil u.hash] at hc
              exact (eq_of_mem_head?_marked hc).imp_right fun hc => (eq_of_mem_head?_marked hc).resolve_right (by simp)
            rcases hsearch with rfl | rfl <;> exact ⟨rfl, rfl⟩
          · exact absurd ⟨s, others, hpath⟩ h
        · rw [List.cons_append, List.head?_cons, Option.mem_some_iff] at hc
          exact hu.inSegment (d :: first) (hpath ▸ List.mem_cons_self) c (hc ▸ List.mem_cons_self)
    obtain ⟨cs, hcs, hhead⟩ := hrest
    rw [hcs]
    exact resolve_path hhead

end Again

end ADT.UrlReference
