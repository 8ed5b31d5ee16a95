import ADT.Lib.Pattern
import ADT.Lib.Lines

/-!
# AppServer.Stderr — what is kept of the App Server's stderr

`sanitizeAppServerStderr`, the `data` handler that `start` sets on the stderr of the process, and
`preserveStartupDiagnostic`, of `codex-runner/src/app-server-client.ts`.  A text is the list of its UTF-16 units: the
regular expressions have no `u` flag, so their classes are classes of units and `i` is about the ASCII letters only.
-/

namespace ADT.AppServer.Stderr

open Pattern

abbrev Text := List ℕ

def units (s : List Char) : Text := s.map Char.toNat

def range (a b : ℕ) (u : ℕ) : Bool := a ≤ u && u ≤ b

def oneOf (s : List Char) (u : ℕ) : Bool := s.any (·.toNat = u)

/-- `\s` -/
def isSpace (u : ℕ) : Bool :=
  range 9 13 u || u = 0x20 || u = 0xA0 || u = 0x1680 || range 0x2000 0x200A u || u = 0x2028 || u = 0x2029 ||
    u = 0x202F || u = 0x205F || u = 0x3000 || u = 0xFEFF

/-- `\w` -/
def isWord (u : ℕ) : Bool := range 0x30 0x39 u || range 0x41 0x5A u || range 0x61 0x7A u || u = 0x5F

/-- `[^\s…]` -/
def notSpace (s : List Char) (u : ℕ) : Bool := !isSpace u && !oneOf s u

/-- What `i` compares. -/
def upper (u : ℕ) : ℕ := if range 0x61 0x7A u then u - 0x20 else u

def letter (c : Char) : Pattern ℕ := one fun u => upper u = upper c.toNat

def word (s : List Char) : Pattern ℕ := seqs (s.map letter)

/-- `\b` -/
def wordBoundary : Pattern ℕ := edge fun before after => before.any isWord != after.any isWord

/-! ### `sanitizeAppServerStderr` -/

def appServerStderrMaxLines : ℕ := 12

def appServerStderrMaxLine : ℕ := 512

/-- An ANSI sequence: ESC and the classes `[@-_]`, `[0-?]*`, the units from space to slash, and `[@-~]`; or ESC and `]` up
to BEL or ESC and a backslash. -/
def ansiSequence : Token ℕ where
  pattern := seq (one (· = 0x1B)) <| alt
    (seqs [one (range 0x40 0x5F), many (range 0x30 0x3F), many (range 0x20 0x2F), one (range 0x40 0x7E)])
    (seqs [letter ']', many (· ≠ 7), alt (one (· = 7)) (seq (one (· = 0x1B)) (letter '\\'))])
  proper := rfl

/-- `/[\x00-\x08\x0B\x0C\x0E-\x1F\x7F-\x9F]/g` -/
def controlCharacter : Token ℕ where
  pattern := one fun u => range 0 8 u || u = 0x0B || u = 0x0C || range 0x0E 0x1F u || range 0x7F 0x9F u
  proper := rfl

/-- `/(https?:\/\/)[^\s/@:]+:[^\s/@]+@/ig` -/
def urlCredentials : Token ℕ where
  pattern := seqs [
    group (seqs [word ['h', 't', 't', 'p'], opt (letter 's'), word [':', '/', '/']]),
    many1 (notSpace ['/', '@', ':']), letter ':', many1 (notSpace ['/', '@']), letter '@']
  proper := rfl

/-- `/\bbearer\s+[^\s,;"']+/ig` -/
def bearerToken : Token ℕ where
  pattern := seqs [
    wordBoundary, word ['b', 'e', 'a', 'r', 'e', 'r'], many1 isSpace, many1 (notSpace [',', ';', '"', '\''])]
  proper := rfl

def quotation : Pattern ℕ := opt (one (oneOf ['"', '\'']))

/-- `api[_-]?key|apikey|access[_-]?token|refresh[_-]?token|token|secret|password|credential` -/
def credentialName : Pattern ℕ :=
  let separator := opt (one (oneOf ['_', '-']))
  let token := word ['t', 'o', 'k', 'e', 'n']
  alts [
    seqs [word ['a', 'p', 'i'], separator, word ['k', 'e', 'y']],
    word ['a', 'p', 'i', 'k', 'e', 'y'],
    seqs [word ['a', 'c', 'c', 'e', 's', 's'], separator, token],
    seqs [word ['r', 'e', 'f', 'r', 'e', 's', 'h'], separator, token],
    token,
    word ['s', 'e', 'c', 'r', 'e', 't'],
    word ['p', 'a', 's', 's', 'w', 'o', 'r', 'd'],
    word ['c', 'r', 'e', 'd', 'e', 'n', 't', 'i', 'a', 'l']]

/-- `/(["']?(?:api[_-]?key|…|credential)s?["']?\s*[:=]\s*)["']?[^\s,;}"']+["']?/ig` -/
def credential : Token ℕ where
  pattern := seqs [
    group (seqs [quotation, credentialName, opt (letter 's'), quotation, many isSpace, one (oneOf [':', '=']),
      many isSpace]),
    quotation, many1 (notSpace [',', ';', '}', '"', '\'']), quotation]
  proper := rfl

def redacted : Text := units ['[', 'R', 'E', 'D', 'A', 'C', 'T', 'E', 'D', ']']

/-- `$1` -/
def Group1 (w : Way ℕ) : Text := w.group.getD []

def sanitizeAppServerStderr (value : Text) : Text :=
  let value := ansiSequence.replace (fun _ => []) value
  let value := controlCharacter.replace (fun _ => []) value
  let value := urlCredentials.replace (fun w => Group1 w ++ redacted ++ units ['@']) value
  let value := bearerToken.replace (fun _ => units ['B', 'e', 'a', 'r', 'e', 'r', ' '] ++ redacted) value
  let value := credential.replace (fun w => Group1 w ++ redacted) value
  value.take appServerStderrMaxLine

theorem sanitize_length_le (value : Text) : (sanitizeAppServerStderr value).length ≤ appServerStderrMaxLine :=
  List.length_take_le _ _

/-! ### The startup diagnostic -/

inductive AppServerStartupCategory
  | ready | spawnFailed | processExited | initializeTimeout | initializeRpcError | stdinFailure | stdoutClosed | unknown
  deriving DecidableEq

structure AppServerStartupDiagnostic where
  category : AppServerStartupCategory
  elapsedMs : ℤ
  exitCode : Option ℤ
  signal : Option String
  stderrTail : List Text

/-- `preserveStartupDiagnostic`, with the details that its callers give. -/
def preserveStartupDiagnostic (current : AppServerStartupDiagnostic) (category : AppServerStartupCategory)
    (elapsedMs : ℤ) (exitCode : Option ℤ) (signal : Option String) : AppServerStartupDiagnostic :=
  if current.category = .unknown then
    { current with
      exitCode := exitCode.or current.exitCode
      signal := signal.or current.signal
      category := category
      elapsedMs := max 0 elapsedMs }
  else current

/-- `/\r?\n/` -/
def lineBreak : Token ℕ where
  pattern := seq (opt (one (· = 13))) (one (· = 10))
  proper := rfl

/-- One turn of the handler's loop. -/
def pushLine (stderrTail : List Text) (line : Text) : List Text :=
  if line = [] then stderrTail
  else
    let stderrTail := stderrTail ++ [sanitizeAppServerStderr line]
    if stderrTail.length > appServerStderrMaxLines then stderrTail.tail else stderrTail

/-- The handler of `data`. -/
def onData (startup : AppServerStartupDiagnostic) (chunk : Text) : AppServerStartupDiagnostic :=
  let parts := lineBreak.split chunk
  { startup with stderrTail := (parts.1 :: parts.2).foldl pushLine startup.stderrTail }

/-- What happens to the diagnostic after `start`: a chunk comes, or `recordStartup` is called. -/
inductive Event
  | data (chunk : Text)
  | recordStartup (category : AppServerStartupCategory) (elapsedMs : ℤ) (exitCode : Option ℤ) (signal : Option String)

def handle (startup : AppServerStartupDiagnostic) : Event → AppServerStartupDiagnostic
  | .data chunk => onData startup chunk
  | .recordStartup category elapsedMs exitCode signal =>
    preserveStartupDiagnostic startup category elapsedMs exitCode signal

def started : AppServerStartupDiagnostic := ⟨.unknown, 0, none, none, []⟩

/-- `this.startup` after the events. -/
def startupAfter (events : List Event) : AppServerStartupDiagnostic := events.foldl handle started

def Event.chunk? : Event → Option Text
  | .data chunk => some chunk
  | .recordStartup .. => none

def dataChunks (events : List Event) : List Text := events.filterMap Event.chunk?

def cr : ℕ := 13

def lf : ℕ := 10

/-- What the tail is for: the sanitised last lines of the whole text. -/
def lastLines (text : Text) : List Text :=
  ((Lines.lines cr lf text).map sanitizeAppServerStderr).rtake appServerStderrMaxLines

theorem foldl_pushLine {stderrTail : List Text} (h : stderrTail.length ≤ appServerStderrMaxLines) (lines : List Text) :
    lines.foldl pushLine stderrTail = (stderrTail ++
      (lines.filter (!·.isEmpty)).map sanitizeAppServerStderr).rtake appServerStderrMaxLines := by
  induction lines generalizing stderrTail with
  | nil =>
    rw [List.filter_nil, List.map_nil, List.append_nil, List.rtake, Nat.sub_eq_zero_of_le h]
    rfl
  | cons line lines ih =>
    rw [List.foldl_cons]
    by_cases hline : line = []
    · rw [pushLine, if_pos hline, ih h, List.filter_cons_of_neg (by simp [hline])]
    · have hpush : pushLine stderrTail line =
          (stderrTail ++ [sanitizeAppServerStderr line]).rtake appServerStderrMaxLines := by
        rw [pushLine, if_neg hline]
        dsimp only
        split
        · rename_i hlen
          have hone : (stderrTail ++ [sanitizeAppServerStderr line]).length - appServerStderrMaxLines = 1 := by
            rw [List.length_append, List.length_singleton] at hlen ⊢
            omega
          rw [List.rtake, hone, List.drop_one]
        · rename_i hlen
          rw [List.rtake, Nat.sub_eq_zero_of_le (Nat.le_of_not_lt hlen)]
          rfl
      rw [hpush, ih (Lines.rtake_length_le _), Lines.rtake_rtake_append, List.append_assoc,
        List.filter_cons_of_pos (by simp [hline])]
      rfl

/-! ### The regular expression cuts at the ends of lines -/

variable (before : Option ℕ) (t : Text) (events : List Event)

theorem lineBreak_lf : lineBreak.first before (lf :: t) = some ⟨[lf], none, t⟩ := rfl

theorem lineBreak_crlf : lineBreak.first before (cr :: lf :: t) = some ⟨[cr, lf], none, t⟩ := rfl

theorem lineBreak_none {c : ℕ} {t : Text} (hlf : c ≠ lf) (hcr : ¬(c = cr ∧ t.head? = some lf)) :
    lineBreak.first before (c :: t) = none := by
  rw [lf] at hlf
  rw [cr, lf] at hcr
  by_cases hc : c = 13
  · subst hc
    cases t with
    | nil => rfl
    | cons d t =>
      have hd : d ≠ 10 := by simpa using hcr
      simp [Token.first, lineBreak, opt, ways, hd]
  · simp [Token.first, lineBreak, opt, ways, hlf, hc]

theorem lineBreak_pieces :
    (lineBreak.piecesFrom t.length before t).foldr Token.addPiece ([], []) = Lines.cutLines cr lf t := by
  induction hn : t.length using Nat.strong_induction_on generalizing before t with
  | _ n ih =>
    subst hn
    rcases t with _ | ⟨c, t⟩
    · rfl
    by_cases hlf : c = lf
    · subst hlf
      rw [Token.piecesFrom_found (lineBreak_lf before t), List.foldr_cons, ih t.length (Nat.lt_succ_self _) _ t rfl,
        Lines.cutLines, if_pos rfl]
      rfl
    by_cases hcr : c = cr ∧ t.head? = some lf
    · obtain ⟨rfl, hhead⟩ := hcr
      rcases t with _ | ⟨d, t⟩
      · cases hhead
      obtain rfl : d = lf := by simpa using hhead
      have hlt : t.length < (cr :: lf :: t).length := by
        rw [List.length_cons, List.length_cons]
        omega
      rw [Token.piecesFrom_found (lineBreak_crlf before t), List.foldr_cons, ih t.length hlt _ t rfl,
        Lines.cutLines, if_neg hlf, if_pos ⟨rfl, rfl⟩, Lines.cutLines, if_pos rfl]
      rfl
    · rw [Token.piecesFrom_unit (lineBreak_none before hlf hcr), List.foldr_cons,
        ih t.length (Nat.lt_succ_self _) _ t rfl, Lines.cutLines, if_neg hlf, if_neg hcr]
      rfl

theorem lineBreak_split : lineBreak.split t = Lines.cutLines cr lf t := lineBreak_pieces none t

/-! ### Every run -/

theorem recordStartup_stderrTail (current : AppServerStartupDiagnostic) (category : AppServerStartupCategory)
    (elapsedMs : ℤ) (exitCode : Option ℤ) (signal : Option String) :
    (preserveStartupDiagnostic current category elapsedMs exitCode signal).stderrTail = current.stderrTail := by
  rw [preserveStartupDiagnostic]
  split
  · rfl
  · rfl

theorem onData_stderrTail {startup : AppServerStartupDiagnostic}
    (h : startup.stderrTail.length ≤ appServerStderrMaxLines) (chunk : Text) :
    (onData startup chunk).stderrTail = (startup.stderrTail ++
      (Lines.lines cr lf chunk).map sanitizeAppServerStderr).rtake appServerStderrMaxLines := by
  show List.foldl pushLine _ _ = _
  rw [foldl_pushLine h, lineBreak_split]
  rfl

theorem startupAfter_stderrTail : (startupAfter events).stderrTail =
    ((Lines.chunkLines cr lf (dataChunks events)).map sanitizeAppServerStderr).rtake appServerStderrMaxLines := by
  induction events using List.reverseRecOn with
  | nil => rfl
  | append_singleton events event ih =>
    rw [startupAfter, List.foldl_concat, ← startupAfter, dataChunks, List.filterMap_append, ← dataChunks]
    cases event with
    | data chunk =>
      have hlen : (startupAfter events).stderrTail.length ≤ appServerStderrMaxLines := by
        rw [ih]
        exact Lines.rtake_length_le _
      show (onData _ chunk).stderrTail = ((Lines.chunkLines cr lf (dataChunks events ++ [chunk])).map _).rtake _
      rw [onData_stderrTail hlen, ih, Lines.rtake_rtake_append, ← List.map_append, Lines.chunkLines, Lines.chunkLines,
        List.flatMap_append, List.flatMap_singleton]
    | recordStartup category elapsedMs exitCode signal =>
      show (preserveStartupDiagnostic _ category elapsedMs exitCode signal).stderrTail =
        ((Lines.chunkLines cr lf (dataChunks events ++ [])).map _).rtake _
      rw [recordStartup_stderrTail, ih, List.append_nil]

/-- **The tail is bounded**, whatever comes. -/
theorem startupAfter_bounded : (startupAfter events).stderrTail.length ≤ appServerStderrMaxLines ∧
      ∀ line ∈ (startupAfter events).stderrTail, line.length ≤ appServerStderrMaxLine := by
  rw [startupAfter_stderrTail]
  refine ⟨Lines.rtake_length_le _, fun line hline => ?_⟩
  obtain ⟨whole, -, rfl⟩ := List.mem_map.1 (List.mem_of_mem_drop hline)
  exact sanitize_length_le whole

theorem map_rtake (lines : List Text) (n : ℕ) :
    (lines.map sanitizeAppServerStderr).rtake n = (lines.rtake n).map sanitizeAppServerStderr := by
  rw [List.rtake, List.rtake, List.length_map, List.map_drop]

/-- **Diagnostics and chunks.** The tail has the sanitised last lines of the text where no break between two chunks cuts a
line, or twelve lines follow the last one that is cut.  A text of fewer lines shows every break inside a line. -/
theorem stderrTail_eq_lastLines (events : List Event) :
    (Lines.Unseen cr lf appServerStderrMaxLines (dataChunks events) →
      (startupAfter events).stderrTail = lastLines (dataChunks events).flatten) ∧
    (Lines.Torn cr lf (dataChunks events) →
      (Lines.lines cr lf (dataChunks events).flatten).length < appServerStderrMaxLines →
        (startupAfter events).stderrTail ≠ lastLines (dataChunks events).flatten) := by
  have hne : cr ≠ lf := by decide
  rw [startupAfter_stderrTail, lastLines, map_rtake, map_rtake]
  refine ⟨fun hunseen => congrArg (List.map _) (Lines.chunkLines_tail hne hunseen), fun htorn hfew heq => ?_⟩
  have hlength := Lines.chunkLines_tail_length hne htorn hfew
  have hsame := congrArg List.length heq
  rw [List.length_map, List.length_map] at hsame
  omega

def passwordName : Text := units ['p', 'a', 's', 's', 'w', 'o', 'r', 'd', '=']

def passwordValue : Text := units ['h', 'u', 'n', 't', 'e', 'r', '2']

/-- A break between a password's name and its value leaves the value in the tail. -/
theorem stderrTail_password : let cut := [Event.data passwordName, Event.data (passwordValue ++ [lf])]
    let whole := [Event.data (passwordName ++ passwordValue ++ [lf])]
    (dataChunks cut).flatten = (dataChunks whole).flatten ∧
      (startupAfter whole).stderrTail = [passwordName ++ redacted] ∧
      (startupAfter cut).stderrTail = [passwordName, passwordValue] ∧
      (startupAfter cut).stderrTail ≠ (startupAfter whole).stderrTail ∧
      (startupAfter cut).stderrTail ≠ lastLines (dataChunks cut).flatten := by
  decide +kernel

/-- Twelve lines after the password put it out of the tail. -/
def pushedOut : List Event :=
  [.data passwordName, .data (passwordValue ++ [lf])] ++ (List.replicate 12 (.data (passwordName ++ passwordValue ++ [lf])))

theorem stderrTail_pushedOut : (startupAfter pushedOut).stderrTail = lastLines (dataChunks pushedOut).flatten ∧
      (startupAfter pushedOut).stderrTail = List.replicate 12 (passwordName ++ redacted) := by
  refine ⟨(stderrTail_eq_lastLines pushedOut).1 fun before after hcut => ?_, by decide +kernel⟩
  have hlast : Lines.lastCut cr lf (dataChunks pushedOut) = some ([passwordName],
      passwordValue ++ [lf] ++ (List.replicate 12 (passwordName ++ passwordValue ++ [lf])).flatten) := by decide +kernel
  obtain ⟨-, rfl⟩ := Prod.mk.inj (Option.some.inj (hcut.symm.trans hlast))
  decide +kernel

end ADT.AppServer.Stderr
