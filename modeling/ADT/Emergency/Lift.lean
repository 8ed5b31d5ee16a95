import ADT.Emergency.Held

/-!
# Emergency.Lift — lifting a completed emergency stop

The routes `emergency-stop` and `resume` of `codex-runner/src/server.ts` in the two roles that serve them.  A resume waits
for the phase of the hard restart, which only the controller goes through, and of the environments and jobs: in the integrated role
no stop is ever lifted, in the controller one is where that phase has been recorded since the latch was last set and the
environments and jobs have loaded.
-/

namespace ADT.Emergency

open Guarded

inductive Role
  | integrated | controller
  deriving DecidableEq

/-- A character of `UUID` in `executor.ts`, at its place. -/
def isUuidChar (c : Char) (i : ℕ) : Bool :=
  if i = 8 ∨ i = 13 ∨ i = 18 ∨ i = 23 then c == '-'
  else if i = 14 then c == '4'
  else if i = 19 then ['8', '9', 'a', 'b', 'A', 'B'].contains c
  else isHexDigit c

/-- What `id` demands of the generation of an executor. -/
def isExecutorId (s : String) : Bool := s.toList.length == 36 && s.toList.zipIdx.all fun p => isUuidChar p.1 p.2

/-- What a resume of a role is given: an integrated server has one generation and looks at its own job; a controller
takes both from the executor, where it answers. -/
structure Executor where
  generation : {s : String // isExecutorId s = true}
  healthy : Bool
  activeExecution : Bool

def Role.resumeCall (role : Role) (executor : Option Executor) (activeJob : Option Runner.JobId) : Call :=
  match role with
  | .integrated => .resume (some "integrated") activeJob.isNone
  | .controller => .resume ((executor.filter (·.healthy)).map (·.generation.val))
      (executor.any fun e => e.healthy && !e.activeExecution)

namespace Server

/-- What has happened since the process started, the latest first. -/
def here (w : Server) : List Event := w.log.takeWhile (· ≠ .crashed)

/-- The calls of the routes: a stop latches first; a controller then records what the executor answers, and in the end
triggers the hard restart.  A resume that is not refused at once waits for the environments and jobs, and is given what
`resumeCall` takes of some executor. -/
def serves (w : Server) (role : Role) (m : Move) : Bool :=
  match m.act with
  | .call _ (.latch generation) => generation.isNone
  | .call ticket (.recordStoppedGeneration generation) =>
    role == .controller && isExecutorId generation && w.here.contains (.returned ticket (.latch none) true)
  | .call ticket .triggerHardRestart => role == .controller && w.here.contains (.returned ticket (.latch none) true)
  | .call _ (.resume current idle) => (w.refuses (.resume current idle) || w.jobs.phase == .up) &&
    match role with
    | .integrated => current == some "integrated" && idle == w.jobs.activeJob.isNone
    | .controller => current.all isExecutorId && (current.isSome || !idle)
  | _ => true

variable (digest : String → Runner.Digest) (cfg : Runner.Config) (webhook : Bool)

/-- The response of the route `emergency-stop`. -/
def responded (role : Role) (log : List Event) : Prop :=
  match role with
  | .integrated => ∃ ticket, .returned ticket (.latch none) true ∈ log
  | .controller => ∃ ticket, .returned ticket .triggerHardRestart true ∈ log

/-- The request `resume` where nothing else is under way.  `workflowResources` throws where the environments or the jobs
could not be loaded. -/
def resumed (role : Role) (executor : Option Executor) (ticket : ℕ) (now : Instant) (w : Server) : Option Server :=
  if w.jobs.phase = .up then
    run (step digest cfg webhook) (fun _ _ => true) w
      [⟨now, .call ticket (role.resumeCall executor w.jobs.activeJob)⟩, ⟨now, .turn⟩, ⟨now, .write true⟩, ⟨now, .finish⟩]
  else none

/-- Whether the request succeeds and the latch is cleared. -/
def lifts (w : Server) (role : Role) (executor : Option Executor) (ticket : ℕ) (now : Instant) : Bool :=
  (resumed digest cfg webhook role executor ticket now w).any fun w' =>
    !w'.state.emergencyStopped &&
      w'.log.head? == some (.returned ticket (role.resumeCall executor w.jobs.activeJob) true)

end Server

/-! ### The phase of the hard restart -/

/-- Whether a hard restart has been recorded since the latch was last set. -/
def restartedSince : List Event → Bool
  | [] => false
  | .restarted :: _ => true
  | .latched _ :: _ => false
  | _ :: log => restartedSince log

/-- Whether a controller has responded to a stop and no stop has latched since. -/
def respondedSince : List Event → Bool
  | [] => false
  | .returned _ .triggerHardRestart true :: _ => true
  | .latched _ :: _ => false
  | _ :: log => respondedSince log

def Role.makes (role : Role) : Call → Prop
  | .latch generation => generation = none
  | .recordStoppedGeneration generation => role = .controller ∧ isExecutorId generation = true
  | .triggerHardRestart => role = .controller
  | .resume _ _ => True

theorem isGeneration_of_isExecutorId {g : String} (h : isExecutorId g = true) : isGeneration g = true := by
  simp only [isExecutorId, Bool.and_eq_true, beq_iff_eq, List.all_eq_true] at h
  obtain ⟨hlength, hchars⟩ := h
  have hleast := length_le_utf16Length g
  have hmost := utf16Length_le g
  have hplain : ∀ c ∈ g.toList, isGenerationChar c = true := by
    intro c hc
    obtain ⟨i, hi, rfl⟩ := List.mem_iff_getElem.mp hc
    have hat := hchars (g.toList[i], i) (List.mk_mem_zipIdx_iff_getElem?.mpr (List.getElem?_eq_getElem hi))
    simp only [isUuidChar] at hat
    split_ifs at hat
    · rw [beq_iff_eq.mp hat]
      decide
    · rw [beq_iff_eq.mp hat]
      decide
    · have hmem := List.contains_iff_mem.mp hat
      simp only [List.mem_cons, List.not_mem_nil, or_false] at hmem
      rcases hmem with h | h | h | h | h | h <;> rw [h] <;> decide
    · simp only [isHexDigit, isLowerHex, Bool.or_eq_true, Bool.and_eq_true, decide_eq_true_eq] at hat
      rcases hat with (hdigit | ⟨hlow, hhigh⟩) | ⟨hlow, hhigh⟩
      · simp [isGenerationChar, hdigit]
      · have hlower : (g.toList[i]).isLower = true := by
          have hmost : g.toList[i].val ≤ 'z'.val := UInt32.le_trans hhigh (show 'f'.val ≤ 'z'.val by decide)
          exact Bool.and_eq_true_iff.mpr ⟨decide_eq_true hlow, decide_eq_true hmost⟩
        simp [isGenerationChar, hlower]
      · have hupper : (g.toList[i]).isUpper = true := by
          have hmost : g.toList[i].val ≤ 'Z'.val := UInt32.le_trans hhigh (show 'F'.val ≤ 'Z'.val by decide)
          exact decide_eq_true ⟨hlow, hmost⟩
        simp [isGenerationChar, hupper]
  simp only [isGeneration, Bool.and_eq_true, decide_eq_true_eq, List.all_eq_true]
  exact ⟨⟨by omega, by omega⟩, hplain⟩

namespace Server

variable {digest : String → Runner.Digest} {cfg : Runner.Config} {webhook : Bool} {w w' : Server} {m : Move}
  {s s' : EmergencyState} {role : Role}

/-- The phase over a run: `s` is the state in force. -/
structure Phased (role : Role) (w : Server) (s : EmergencyState) : Prop where
  complete : s.emergencyStopped = true → (s.restartPhaseComplete = true ↔ restartedSince w.log = true)
  responded : respondedSince w.log = true → s.emergencyStopped = true → restartedSince w.log = true
  controlled : restartedSince w.log = true → role = .controller
  lifted : ∀ current, .resumed current ∈ w.log → role = .controller
  sound : s.sound = true

theorem phased_initial : Phased role initial .initial where
  complete h := absurd h (by decide)
  responded h := absurd h (by decide)
  controlled h := absurd h (by decide)
  lifted _ h := absurd h List.not_mem_nil
  sound := by decide

theorem phase_of_tells {es : List Event} (hes : ∀ e ∈ es, w.Tells s e) :
    restartedSince (es ++ w.log) = restartedSince w.log ∧
      (respondedSince (es ++ w.log) = true → s.emergencyStopped = true → respondedSince w.log = true) := by
  induction es with
  | nil => exact ⟨rfl, fun h _ => h⟩
  | cons e es ih =>
    obtain ⟨hrestarted, hresponded⟩ := ih fun e' he' => hes e' (List.mem_cons_of_mem _ he')
    have he := hes e (List.mem_cons_self ..)
    rw [List.cons_append]
    cases e with
    | latched g => exact he.elim
    | recorded g => exact he.elim
    | restarted => exact he.elim
    | resumed current => exact he.elim
    | crashed => exact ⟨hrestarted, hresponded⟩
    | admitted id => exact ⟨hrestarted, hresponded⟩
    | returned ticket call ok =>
      refine ⟨hrestarted, ?_⟩
      cases call with
      | latch g => exact hresponded
      | recordStoppedGeneration g => exact hresponded
      | resume current idle => exact hresponded
      | triggerHardRestart =>
        rcases he with rfl | ⟨-, hfree⟩
        · exact hresponded
        · intro _ hstopped
          rw [hfree rfl] at hstopped
          cases hstopped

/-- **One move.** -/
theorem Phased.step (h : Phased role w s) (hchange : Change role.makes w w' m s s') : Phased role w' s' := by
  have hlifted : ∀ es : List Event, w'.log = es ++ w.log → (∀ current, .resumed current ∉ es) →
      ∀ current, .resumed current ∈ w'.log → role = .controller := by
    intro es hlog hes current hmem
    rcases List.mem_append.mp (hlog ▸ hmem) with hmem | hmem
    · exact absurd hmem (hes current)
    · exact h.lifted current hmem
  cases hchange with
  | told es htells hlog hstate =>
    obtain ⟨hrestarted, hresponded⟩ := phase_of_tells htells
    rw [← hlog] at hrestarted hresponded
    exact ⟨fun hs => by rw [hrestarted]; exact h.complete hs,
      fun hr hs => hrestarted ▸ h.responded (hresponded hr hs) hs, fun hr => h.controlled (hrestarted ▸ hr),
      hlifted es hlog fun current hmem => htells _ hmem, h.sound⟩
  | ignored ticket g rest hact hnext hup hinForce hstopped hfound hlog hstate =>
    have hrestarted : restartedSince w'.log = restartedSince w.log := by rw [hlog]; rfl
    have hresponded : respondedSince w'.log = respondedSince w.log := by rw [hlog]; rfl
    exact ⟨fun hs => by rw [hrestarted]; exact h.complete hs, fun hr hs => hrestarted ▸ h.responded (hresponded ▸ hr) hs,
      fun hr => h.controlled (hrestarted ▸ hr), hlifted [_, _] hlog (by simp), h.sound⟩
  | landed call _ hpermitted hwrites hup hlog hstate =>
    cases call with
    | latch g =>
      obtain ⟨hstopped, hgeneration, hpending⟩ := hwrites
      have hrestarted : restartedSince w'.log = false := by rw [hlog]; rfl
      have hresponded : respondedSince w'.log = false := by rw [hlog]; rfl
      obtain rfl : g = none := hpermitted
      refine ⟨fun _ => by rw [hpending, hrestarted], fun hr => ?_, fun hr => ?_, hlifted [_] hlog
        (by simp [Call.event]), ?_⟩
      · exact absurd (hresponded.symm.trans hr) (by decide)
      · exact absurd (hrestarted.symm.trans hr) (by decide)
      · have hsound := (Bool.and_eq_true_iff.mp h.sound).1
        rw [EmergencyState.sound, hstopped, hgeneration, Option.none_or]
        cases hkept : s.stoppedGeneration with
        | none => rfl
        | some g =>
          rw [hkept, Option.all_some] at hsound
          by_cases hg : g = ""
          · simp [given, Option.filter_some, hg]
          · simp [given, Option.filter_some, hg, hsound]
    | recordStoppedGeneration g =>
      obtain ⟨hstopped, -, hnext, hgeneration, hrestart⟩ := hwrites
      have hrestarted : restartedSince w'.log = restartedSince w.log := by rw [hlog]; rfl
      have hresponded : respondedSince w'.log = respondedSince w.log := by rw [hlog]; rfl
      refine ⟨fun _ => ?_, fun hr _ => hrestarted ▸ h.responded (hresponded ▸ hr) hstopped,
        fun hr => h.controlled (hrestarted ▸ hr), hlifted [_] hlog (by simp [Call.event]), ?_⟩
      · rw [EmergencyState.restartPhaseComplete, hrestart, hrestarted]
        exact h.complete hstopped
      · rw [EmergencyState.sound, hnext, hgeneration, Option.all_some, isGeneration_of_isExecutorId hpermitted.2]
        rfl
    | triggerHardRestart =>
      obtain ⟨hstopped, hnext, hgeneration, hcomplete⟩ := hwrites
      have hrestarted : restartedSince w'.log = true := by rw [hlog]; rfl
      refine ⟨fun _ => by rw [hcomplete, hrestarted], fun _ _ => hrestarted, fun _ => hpermitted,
        hlifted [_] hlog (by simp [Call.event]), ?_⟩
      have hsound := h.sound
      rw [EmergencyState.sound, hstopped] at hsound
      rw [EmergencyState.sound, hnext, hgeneration]
      exact hsound
    | resume current idle =>
      obtain ⟨hstopped, hcomplete, hnext, hgeneration, -⟩ := hwrites
      have hrestarted : restartedSince w'.log = restartedSince w.log := by rw [hlog]; rfl
      have hcontroller : role = .controller := h.controlled ((h.complete hstopped).mp hcomplete)
      refine ⟨fun hs => ?_, fun _ hs => ?_, fun _ => hcontroller, fun _ _ => hcontroller, ?_⟩
      · exact absurd (hnext.symm.trans hs) (by decide)
      · exact absurd (hnext.symm.trans hs) (by decide)
      · rw [EmergencyState.sound, hgeneration]
        simp
  | settled ticket call before hwrites hlog hstate =>
    have hrestarted : restartedSince w'.log = restartedSince w.log := by rw [hlog]; rfl
    refine ⟨fun hs => by rw [hrestarted]; exact h.complete hs, fun hr hs => ?_, fun hr => h.controlled (hrestarted ▸ hr),
      hlifted [_] hlog (by simp), h.sound⟩
    rw [hrestarted]
    rw [hlog] at hr
    cases call with
    | latch g => exact h.responded hr hs
    | recordStoppedGeneration g => exact h.responded hr hs
    | resume current idle => exact h.responded hr hs
    | triggerHardRestart => exact (h.complete hs).mp hwrites.2.2.2

theorem makes_of_serves (h : w.serves role m = true) (ticket : ℕ) (call : Call) (hact : m.act = .call ticket call) :
    role.makes call := by
  unfold serves at h
  rw [hact] at h
  cases call with
  | latch g => exact Option.isNone_iff_eq_none.mp h
  | recordStoppedGeneration g =>
    obtain ⟨h, -⟩ := Bool.and_eq_true_iff.mp h
    obtain ⟨hrole, hid⟩ := Bool.and_eq_true_iff.mp h
    exact ⟨eq_of_beq hrole, hid⟩
  | triggerHardRestart => exact eq_of_beq (Bool.and_eq_true_iff.mp h).1
  | resume current idle => trivial

theorem phased_of_reaches (h : Reaches (step digest cfg webhook) (fun v m => v.serves role m = true) initial w) :
    ∃ s, Tracked role.makes w s ∧ Phased role w s := by
  refine h.invariant (I := fun w => ∃ s, Tracked role.makes w s ∧ Phased role w s)
    ⟨.initial, tracked_initial, phased_initial⟩ ?_
  rintro v v' m ⟨s, htracked, hphased⟩ hserves hmove
  obtain ⟨s', htracked', hchange⟩ := htracked.step (makes_of_serves hserves) hmove
  exact ⟨s', htracked', hphased.step hchange⟩

/-! ### The request -/

/-- The premises of a resume: no job is active, and the executor of a controller is healthy, idle and of another
generation than the stopped one. -/
def ready (w : Server) (role : Role) (executor : Option Executor) : Prop :=
  w.jobs.activeJob = none ∧ match role with
    | .integrated => True
    | .controller => ∃ e, executor = some e ∧ e.healthy = true ∧ e.activeExecution = false ∧
        w.state.stoppedGeneration ≠ some e.generation.val

variable {executor : Option Executor} {ticket : ℕ} {now : Instant}

theorem ne_empty_of_isExecutorId {g : String} (h : isExecutorId g = true) : g ≠ "" := by
  rintro rfl
  revert h
  decide

theorem turn_resumeCall (hstopped : w.state.emergencyStopped = true) (hready : w.ready .controller executor)
    (hcomplete : w.state.restartPhaseComplete = true) :
    (Role.controller.resumeCall executor w.jobs.activeJob).turn now w.state =
      .writes ⟨false, none, now, w.state.hardRestart⟩ := by
  obtain ⟨-, e, rfl, hhealthy, hidle, hdiffers⟩ := hready
  have hgiven : given (some e.generation.val) = some e.generation.val :=
    given_eq_some.mpr ⟨rfl, ne_empty_of_isExecutorId e.generation.property⟩
  have hother : (some e.generation.val == w.state.stoppedGeneration) = false :=
    beq_eq_false_iff_ne.mpr (Ne.symm hdiffers)
  simp [Role.resumeCall, Call.turn, hstopped, hcomplete, hhealthy, hidle, hgiven, hother, Option.filter_some]

theorem lifts_of_unloaded (h : w.jobs.phase ≠ .up) : w.lifts digest cfg webhook role executor ticket now = false := by
  simp [lifts, resumed, h]

theorem lifts_eq_false (hup : w.up = true) (hwaiting : w.waiting = []) (hstopped : w.state.emergencyStopped = true)
    (hpending : w.state.restartPhaseComplete = false) : w.lifts digest cfg webhook role executor ticket now = false := by
  have hrefuses : w.refuses (role.resumeCall executor w.jobs.activeJob) = true := by
    cases role <;> simp [Role.resumeCall, refuses, hstopped, hpending]
  by_cases hphase : w.jobs.phase = .up
  · simp [lifts, resumed, hphase, run, step, hup, hrefuses, hwaiting]
  · exact lifts_of_unloaded hphase

theorem lifts_eq_true (hup : w.up = true) (hrunning : w.running = none) (hwaiting : w.waiting = [])
    (hstopped : w.state.emergencyStopped = true) (hready : w.ready .controller executor)
    (hcomplete : w.state.restartPhaseComplete = true) (hphase : w.jobs.phase = .up) :
    w.lifts digest cfg webhook .controller executor ticket now = true := by
  have hturn : (Role.controller.resumeCall executor w.jobs.activeJob).turn now w.state =
      .writes ⟨false, none, now, w.state.hardRestart⟩ := turn_resumeCall hstopped hready hcomplete
  have hrefuses : w.refuses (Role.controller.resumeCall executor w.jobs.activeJob) = false := by
    simp [Role.resumeCall, refuses, hcomplete]
  simp [lifts, resumed, hphase, run, step, begin, hup, hrefuses, hwaiting, hrunning, hturn]

/-- **Lifting a stop.**  In every state that the routes of a role reach, with nothing under way and the premises of a
resume, the request lifts the latch if and only if the role is the controller's, the phase of the hard restart has been
recorded since the latch was last set, and the environments and jobs have loaded; that phase has been recorded where a
controller has responded to a stop since.  An integrated server lifts no stop in any order of steps. -/
theorem resume_lifts_iff (h : Reaches (step digest cfg webhook) (fun v m => v.serves role m = true) initial w)
    (hup : w.up = true) (hrunning : w.running = none) (hwaiting : w.waiting = [])
    (hstopped : w.state.emergencyStopped = true) (hready : w.ready role executor) :
    (w.lifts digest cfg webhook role executor ticket now = true ↔
        role = .controller ∧ restartedSince w.log = true ∧ w.jobs.phase = .up) ∧
      (respondedSince w.log = true → restartedSince w.log = true) ∧
      (∀ current, .resumed current ∈ w.log → role = .controller) := by
  obtain ⟨s, htracked, hphased⟩ := phased_of_reaches h
  obtain rfl := htracked.inForce hup hrunning
  refine ⟨⟨fun hlifts => ?_, ?_⟩, fun hresponded => hphased.responded hresponded hstopped, hphased.lifted⟩
  · have hcomplete : w.state.restartPhaseComplete = true := by
      by_contra hpending
      rw [lifts_eq_false hup hwaiting hstopped (Bool.eq_false_iff.mpr hpending)] at hlifts
      cases hlifts
    have hrestarted := (hphased.complete hstopped).mp hcomplete
    refine ⟨hphased.controlled hrestarted, hrestarted, ?_⟩
    by_contra hphase
    rw [lifts_of_unloaded hphase] at hlifts
    cases hlifts
  · rintro ⟨rfl, hrestarted, hphase⟩
    exact lifts_eq_true hup hrunning hwaiting hstopped hready ((hphased.complete hstopped).mpr hrestarted) hphase

end Server

namespace Sample

/-- An executor after its restart. -/
def restartedExecutor : Executor := ⟨⟨generationB, by decide +kernel⟩, true, false⟩

def booting : List Act := [.boot, .jobs .boot, .jobs .loaded]

end Sample

namespace Server

/-- A controller that has responded to a stop lifts it. -/
theorem resume_lifts_controller :
    ∃ w : Server, w.lifts Runner.Sample.digest Runner.Sample.split true .controller (some Sample.restartedExecutor) 2
      ⟨2026, 0, 0, 0, 0, 0, 0⟩ = true := by
  obtain ⟨w, hreach, htest⟩ : ∃ w, Reaches (step Runner.Sample.digest Runner.Sample.split true) _ initial w ∧
      decide (w.up = true ∧ w.running.isNone = true ∧ w.waiting = [] ∧ w.state.emergencyStopped = true ∧
        w.jobs.activeJob = none ∧ w.state.stoppedGeneration = some Sample.generationA ∧
        respondedSince w.log = true ∧ w.jobs.phase = .up) = true :=
    reaches_of_any (fun (v : Server) m => v.serves .controller m)
      (Sample.moves (Sample.booting ++ Sample.stopping)) _ (by decide +kernel)
  obtain ⟨hup, hrunning, hwaiting, hstopped, hjob, hgeneration, hresponded, hphase⟩ := of_decide_eq_true htest
  have hready : w.ready .controller (some Sample.restartedExecutor) := by
    refine ⟨hjob, _, rfl, rfl, rfl, ?_⟩
    rw [hgeneration]
    decide +kernel
  obtain ⟨hlifts, hrestarted, -⟩ :=
    resume_lifts_iff hreach hup (Option.isNone_iff_eq_none.mp hrunning) hwaiting hstopped hready
  exact ⟨w, hlifts.mpr ⟨rfl, hrestarted hresponded, hphase⟩⟩

/-- An integrated server that has responded to a stop, has loaded and runs no job, does not lift it. -/
theorem integrated_neverLifted : ¬∀ (role : Role) (w : Server) executor ticket now,
      Reaches (step Runner.Sample.digest Runner.Sample.integrated false) (fun v m => v.serves role m = true) initial w →
      responded role w.log → w.up = true → w.jobs.phase = .up → w.running = none → w.waiting = [] →
      w.state.emergencyStopped = true →
      w.ready role executor →
      w.lifts Runner.Sample.digest Runner.Sample.integrated false role executor ticket now = true := by
  intro hall
  obtain ⟨w, hreach, htest⟩ : ∃ w, Reaches (step Runner.Sample.digest Runner.Sample.integrated false) _ initial w ∧
      decide (w.up = true ∧ w.running.isNone = true ∧ w.waiting = [] ∧ w.state.emergencyStopped = true ∧
        w.jobs.activeJob = none ∧ w.jobs.phase = .up ∧ .returned 1 (.latch none) true ∈ w.log ∧ w.lifts Runner.Sample.digest
          Runner.Sample.integrated false .integrated none 2 ⟨2026, 0, 0, 0, 0, 0, 0⟩ = false) = true :=
    reaches_of_any (fun (v : Server) m => v.serves .integrated m)
      (Sample.moves (Sample.booting ++ Sample.writing 1 (.latch none))) _ (by decide +kernel)
  obtain ⟨hup, hrunning, hwaiting, hstopped, hjob, hphase, hlog, hnot⟩ := of_decide_eq_true htest
  have hlifts := hall .integrated w none 2 ⟨2026, 0, 0, 0, 0, 0, 0⟩ hreach ⟨1, hlog⟩ hup hphase
    (Option.isNone_iff_eq_none.mp hrunning) hwaiting hstopped ⟨hjob, trivial⟩
  rw [hnot] at hlifts
  cases hlifts

end Server

end ADT.Emergency
