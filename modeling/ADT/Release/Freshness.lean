import Mathlib.Tactic

/-!
# Release.Freshness — which deployments of the Worker are still current

The classification of changed paths (`lib/deployment-component-impact.js`, `scripts/classify-changes.mjs`), the decision
of `scripts/evaluate-deployment-freshness.mjs`, and the deployments of a history of `main` that it lets through.
-/

namespace ADT.Release

/-! ### Paths -/

def startsWith (p front : String) : Bool := front.toList.isPrefixOf p.toList

def endsWith (p back : String) : Bool := back.toList.isSuffixOf p.toList

/-- `String(path).replace(/^\\.\\//, '')` -/
def normalizePath (path : String) : String :=
  if startsWith path "./" then String.ofList (path.toList.drop 2) else path

def isLineTerminator (c : Char) : Bool := c == '\n' || c == '\r' || c.toNat == 0x2028 || c.toNat == 0x2029

/-- `/^stem\\..+$/`, of a stem that ends with its dot. -/
def isConfigPath (stem p : String) : Bool :=
  startsWith p stem && !(p.toList.drop stem.toList.length).isEmpty &&
    (p.toList.drop stem.toList.length).all fun c => !isLineTerminator c

def rootAppBuildFiles : List String :=
  ["package.json", "package-lock.json", "wrangler.jsonc", "tsconfig.json", "cloudflare-worker.ts", ".nvmrc", ".npmrc",
    "postcss.config.mjs", "postcss.config.js", "tailwind.config.js", "tailwind.config.ts", "tailwind.config.mjs"]

def rootVerificationExtras : List String := [".node-version", "cloudflare-env.d.ts", "next-env.d.ts", "eslint.config.mjs"]

def sharedAppRunnerFiles : List String := ["codex-runner/release.json"]

def sharedAppRuntimeFiles : List String := ["adt-runtime/release.json"]

def runtimeImageFiles : List String :=
  ["adt-runtime/Dockerfile", "adt-runtime/package.json", "adt-runtime/package-lock.json", "adt-runtime/tsconfig.json",
    "adt-runtime/release.json"]

def runnerImageFiles : List String :=
  ["codex-runner/Dockerfile", "codex-runner/package.json", "codex-runner/package-lock.json", "codex-runner/tsconfig.json",
    "codex-runner/release.json", "codex-runner/gai.conf", "codex-runner/git-askpass.sh"]

def adrianImageFiles : List String := ["third_party/adrian-upstream.json", "adrian/Dockerfile"]

def isDocumentationOrRequestPath (path : String) : Bool :=
  let p := normalizePath path
  p == "AGENTS.md" || endsWith p "/AGENTS.md" ||
    [".agents/", "docs/", "specs/", "prompts/", "requests/"].any (startsWith p) || p == "README.md" ||
    (endsWith p ".md" && 3 < p.toList.length && !p.toList.contains '/') ||
    p == "adt-runtime/README.md" || startsWith p "adt-runtime/docs/" ||
    p == "codex-runner/README.md" || startsWith p "codex-runner/docs/"

def isAppBuildPath (path : String) : Bool :=
  let p := normalizePath path
  ["app/", "components/", "lib/", "public/"].any (startsWith p) || rootAppBuildFiles.contains p ||
    sharedAppRunnerFiles.contains p || sharedAppRuntimeFiles.contains p ||
    ["next.config.", "open-next.config.", "postcss.config.", "tailwind.config."].any (isConfigPath · p)

def isRuntimeImagePath (path : String) : Bool :=
  let p := normalizePath path
  startsWith p "adt-runtime/src/" || runtimeImageFiles.contains p

def isRunnerImagePath (path : String) : Bool :=
  let p := normalizePath path
  startsWith p "codex-runner/src/" || runnerImageFiles.contains p

def isAdrianImagePath (path : String) : Bool :=
  let p := normalizePath path
  startsWith p "third_party/adrian/" || adrianImageFiles.contains p

def isKnownDeploymentClassificationPath (path : String) : Bool :=
  let p := normalizePath path
  isDocumentationOrRequestPath p || p == ".gitignore" || p == ".gitkeep" || rootVerificationExtras.contains p ||
    isAppBuildPath p ||
    ["migrations/", ".github/", "scripts/", "test/", "test-fixtures/", "adt-runtime/", "codex-runner/", "adrian/",
      "third_party/adrian/"].any (startsWith p) || p == "third_party/adrian-upstream.json"

def isWorkerDeployPath (path : String) : Bool := isAppBuildPath (normalizePath path)

def isMigrationPath (path : String) : Bool := startsWith (normalizePath path) "migrations/"

/-- A line of `git diff --name-status -M`. -/
structure ChangedFile where
  filename : String
  previousFilename : Option String

/-- What the decisions read of a classification. -/
structure Impact where
  deployWorker : Bool
  applyMigrations : Bool
  publishRuntime : Bool
  publishRunner : Bool
  publishAdrian : Bool
  runnerReleaseBarrier : Bool
  hasUnclassifiedChanges : Bool

/-- The paths of the changed files, on both sides of a rename. -/
def allPaths (files : List ChangedFile) : List String :=
  let normalized := (files.map fun file =>
    ChangedFile.mk (normalizePath file.filename) (file.previousFilename.map normalizePath)).filter (·.filename ≠ "")
  ((normalized.flatMap fun file => file.filename :: file.previousFilename.toList).filter (· ≠ "")).map normalizePath

def classifyChanges (files : List ChangedFile) : Impact :=
  let paths := allPaths files
  let deployWorker := paths.any isWorkerDeployPath
  { deployWorker := deployWorker
    applyMigrations := deployWorker || paths.any isMigrationPath
    publishRuntime := paths.any isRuntimeImagePath
    publishRunner := paths.any isRunnerImagePath
    publishAdrian := paths.any isAdrianImagePath
    runnerReleaseBarrier := paths.contains "codex-runner/release.json"
    hasUnclassifiedChanges := paths.any fun path => !isKnownDeploymentClassificationPath (normalizePath path) }

/-! ### Freshness -/

inductive Operation
  | cloudflare | runtime | runner | adrian

structure Freshness where
  current : Bool
  reason : String

/-- A newer input of the operation supersedes it. -/
def Freshness.unless (superseded : Bool) (newer same : String) : Freshness :=
  if superseded then ⟨false, newer⟩ else ⟨true, same⟩

def evaluateOperationFreshness (operation : Operation) (interveningImpact : Impact)
    (targetDeployWorker targetApplyMigrations targetRunnerReleaseBarrier : Bool) : Except String Freshness :=
  if interveningImpact.hasUnclassifiedChanges then .ok ⟨false, "intervening range contains unclassified paths"⟩
  else
    match operation with
    | .runtime => .ok (.unless interveningImpact.publishRuntime "a newer Runtime image input exists"
        "intervening commits do not change Runtime image inputs")
    | .adrian => .ok (.unless interveningImpact.publishAdrian "a newer Adrian image input exists"
        "intervening commits do not change Adrian image inputs")
    | .runner => .ok (.unless interveningImpact.publishRunner "a newer Runner image input exists"
        "intervening commits do not change Runner image inputs")
    | .cloudflare =>
      if !targetDeployWorker && !targetApplyMigrations then
        .error "Cloudflare freshness requires at least one target operation."
      else if targetRunnerReleaseBarrier && !targetDeployWorker then
        .error "Runner release barrier requires a Worker deployment target."
      else if targetRunnerReleaseBarrier then
        .ok (.unless interveningImpact.runnerReleaseBarrier
          "a newer shared Runner release supersedes this Worker-to-Runner barrier"
          "exact Worker deployment remains required to establish the shared Runner release barrier")
      else if targetDeployWorker then
        .ok (.unless interveningImpact.deployWorker "a newer Worker input supersedes this Worker deployment"
          "intervening commits do not supersede this Worker deployment")
      else
        .ok (.unless interveningImpact.applyMigrations
          "a newer migration or Worker operation subsumes this migration-only target"
          "intervening commits do not subsume this migration-only target")

/-! ### A history of `main` -/

section History

variable {Blob : Type}

abbrev Tree (Blob : Type) := String → Option Blob

def IsGitPath (path : String) : Prop := path ≠ "" ∧ startsWith path "./" = false

/-- The trees of a linear history: `trees 0` is the one it starts from, `trees i` the one of its `i`-th commit. -/
structure History (Blob : Type) where
  trees : ℕ → Tree Blob
  length : ℕ
  isGitPath : ∀ i path, trees i path ≠ none → IsGitPath path

namespace History

variable (diff : Tree Blob → Tree Blob → List ChangedFile) (history : History Blob)

def head : Tree Blob := history.trees history.length

/-- The classification of a commit. -/
def impact (i : ℕ) : Impact := classifyChanges (diff (history.trees (i - 1)) (history.trees i))

/-- The freshness job of a commit whose classification requests a Worker deployment. -/
def isCurrent (i : ℕ) : Bool :=
  i == history.length ||
    match evaluateOperationFreshness .cloudflare (classifyChanges (diff (history.trees i) history.head))
      (history.impact diff i).deployWorker (history.impact diff i).applyMigrations
      (history.impact diff i).runnerReleaseBarrier with
    | .ok freshness => freshness.current
    | .error _ => false

/-- The Worker that the jobs leave, in the order they run; `none` where none has deployed. -/
def leftDeployed (order : List ℕ) : Option (Tree Blob) :=
  order.foldl (fun deployed i =>
    if (history.impact diff i).deployWorker && history.isCurrent diff i then some (history.trees i) else deployed) none

end History

/-- Two trees have the same Worker build inputs. -/
def SameWorkerInputs (a b : Tree Blob) : Prop := ∀ path, isAppBuildPath path → a path = b path

/-- `git diff` reports the paths in which two trees of the history differ. -/
def Exact (diff : Tree Blob → Tree Blob → List ChangedFile) (history : History Blob) : Prop :=
  ∀ i j, i ≤ j → j ≤ history.length →
    ∀ path, path ∈ (diff (history.trees i) (history.trees j)).flatMap (fun file => file.filename :: file.previousFilename.toList) ↔
      history.trees i path ≠ history.trees j path

/-- The changed paths of every commit are classified. -/
def Classified (diff : Tree Blob → Tree Blob → List ChangedFile) (history : History Blob) : Prop :=
  ∀ i, 1 ≤ i → i ≤ history.length → (history.impact diff i).hasUnclassifiedChanges = false

/-! ### What the classification says of two trees -/

theorem normalizePath_of_isGitPath {path : String} (h : IsGitPath path) : normalizePath path = path := by
  rw [normalizePath, h.2, if_neg (by decide)]

theorem mem_allPaths {files : List ChangedFile}
    (h : ∀ path ∈ files.flatMap (fun file => file.filename :: file.previousFilename.toList), IsGitPath path) (path : String) :
    path ∈ allPaths files ↔ path ∈ files.flatMap fun file => file.filename :: file.previousFilename.toList := by
  have hsame : ∀ file ∈ files,
      ChangedFile.mk (normalizePath file.filename) (file.previousFilename.map normalizePath) = file := by
    rintro ⟨filename, previous⟩ hfile
    have hpath : ∀ p ∈ filename :: previous.toList, IsGitPath p := fun p hp => h p (List.mem_flatMap.mpr ⟨_, hfile, hp⟩)
    rw [normalizePath_of_isGitPath (hpath filename List.mem_cons_self)]
    rcases previous with _ | previous
    · rfl
    · rw [Option.map_some, normalizePath_of_isGitPath (hpath previous (by simp))]
  have hmap : (files.map fun file =>
      ChangedFile.mk (normalizePath file.filename) (file.previousFilename.map normalizePath)) = files := by
    rw [List.map_congr_left hsame, List.map_id']
  have hnamed : files.filter (·.filename ≠ "") = files := by
    rw [List.filter_eq_self]
    intro file hfile
    exact decide_eq_true (h file.filename (List.mem_flatMap.mpr ⟨file, hfile, List.mem_cons_self⟩)).1
  rw [allPaths, hmap, hnamed, List.mem_map]
  constructor
  · rintro ⟨p, hp, rfl⟩
    have hmem := (List.mem_filter.mp hp).1
    rw [normalizePath_of_isGitPath (h p hmem)]
    exact hmem
  · intro hpath
    exact ⟨path, List.mem_filter.mpr ⟨hpath, decide_eq_true (h path hpath).1⟩, normalizePath_of_isGitPath (h path hpath)⟩

variable {diff : Tree Blob → Tree Blob → List ChangedFile} {history : History Blob}

theorem History.isGitPath_of_ne {i j : ℕ} {path : String} (h : history.trees i path ≠ history.trees j path) :
    IsGitPath path := by
  by_cases hi : history.trees i path = none
  · exact history.isGitPath j path fun hj => h (hi.trans hj.symm)
  · exact history.isGitPath i path hi

section Exactness

variable (hdiff : Exact diff history) {i j : ℕ} (hij : i ≤ j) (hj : j ≤ history.length)
include hdiff hij hj

theorem Exact.mem_allPaths (path : String) :
    path ∈ allPaths (diff (history.trees i) (history.trees j)) ↔ history.trees i path ≠ history.trees j path := by
  rw [Release.mem_allPaths fun p hp => History.isGitPath_of_ne ((hdiff i j hij hj p).mp hp)]
  exact hdiff i j hij hj path

theorem Exact.deployWorker_eq_false : (classifyChanges (diff (history.trees i) (history.trees j))).deployWorker = false ↔
    SameWorkerInputs (history.trees i) (history.trees j) := by
  show (allPaths _).any isWorkerDeployPath = false ↔ _
  rw [List.any_eq_false]
  constructor
  · intro h path hpath
    by_contra hne
    have hgit := normalizePath_of_isGitPath (History.isGitPath_of_ne hne)
    refine h path ((hdiff.mem_allPaths hij hj path).mpr hne) ?_
    rw [isWorkerDeployPath, hgit]
    exact hpath
  · intro h path hpath hworker
    have hne := (hdiff.mem_allPaths hij hj path).mp hpath
    rw [isWorkerDeployPath, normalizePath_of_isGitPath (History.isGitPath_of_ne hne)] at hworker
    exact hne (h path hworker)

theorem Exact.runnerReleaseBarrier_eq_false :
    (classifyChanges (diff (history.trees i) (history.trees j))).runnerReleaseBarrier = false ↔
      history.trees i "codex-runner/release.json" = history.trees j "codex-runner/release.json" := by
  show (allPaths _).contains "codex-runner/release.json" = false ↔ _
  rw [← Bool.not_eq_true, List.contains_iff_mem, hdiff.mem_allPaths hij hj, not_not]

theorem Exact.hasUnclassifiedChanges_eq_false :
    (classifyChanges (diff (history.trees i) (history.trees j))).hasUnclassifiedChanges = false ↔
      ∀ path, history.trees i path ≠ history.trees j path → isKnownDeploymentClassificationPath (normalizePath path) := by
  show (allPaths _).any _ = false ↔ _
  rw [List.any_eq_false]
  constructor
  · intro h path hne
    have hknown := h path ((hdiff.mem_allPaths hij hj path).mpr hne)
    simpa using hknown
  · intro h path hpath
    have hknown := h path ((hdiff.mem_allPaths hij hj path).mp hpath)
    simp [hknown]

end Exactness

theorem Classified.between (hdiff : Exact diff history) (hclassified : Classified diff history) {i j : ℕ} (hij : i ≤ j)
    (hj : j ≤ history.length) :
    (classifyChanges (diff (history.trees i) (history.trees j))).hasUnclassifiedChanges = false := by
  rw [hdiff.hasUnclassifiedChanges_eq_false hij hj]
  induction j, hij using Nat.le_induction with
  | base => exact fun path hne => absurd rfl hne
  | succ j hij ih =>
    intro path hne
    by_cases hstep : history.trees j path = history.trees (j + 1) path
    · exact ih (by omega) path fun hsame => hne (hsame.trans hstep)
    · have hcommit := hclassified (j + 1) (by omega) hj
      exact (hdiff.hasUnclassifiedChanges_eq_false (Nat.le_succ j) hj).mp hcommit path hstep

/-! ### Which deployments are current -/

theorem evaluateOperationFreshness_worker {impact : Impact} (h : impact.hasUnclassifiedChanges = false)
    (targetApplyMigrations targetRunnerReleaseBarrier : Bool) :
    ∃ freshness, evaluateOperationFreshness .cloudflare impact true targetApplyMigrations targetRunnerReleaseBarrier =
      .ok freshness ∧
      freshness.current = !(if targetRunnerReleaseBarrier then impact.runnerReleaseBarrier else impact.deployWorker) := by
  unfold evaluateOperationFreshness
  rw [if_neg (by rw [h]; decide)]
  dsimp only
  rw [if_neg (by simp), if_neg (by simp)]
  cases targetRunnerReleaseBarrier
  · refine ⟨_, rfl, ?_⟩
    unfold Freshness.unless
    cases impact.deployWorker <;> rfl
  · refine ⟨_, rfl, ?_⟩
    unfold Freshness.unless
    cases impact.runnerReleaseBarrier <;> rfl

/-- A commit that requests a Worker deployment is current where it has the Worker build inputs of the head, and as a
release barrier where it has the release of the head. -/
theorem isCurrent_iff (hdiff : Exact diff history) (hclassified : Classified diff history) {i : ℕ}
    (hi : i ≤ history.length) (hworker : (history.impact diff i).deployWorker = true) :
    history.isCurrent diff i = true ↔
      if (history.impact diff i).runnerReleaseBarrier then
        history.trees i "codex-runner/release.json" = history.head "codex-runner/release.json"
      else SameWorkerInputs (history.trees i) history.head := by
  have hnet := hclassified.between hdiff hi le_rfl
  obtain ⟨freshness, hfreshness, hcurrent⟩ := evaluateOperationFreshness_worker hnet
    (history.impact diff i).applyMigrations (history.impact diff i).runnerReleaseBarrier
  have hjob : history.isCurrent diff i = (i == history.length || freshness.current) := by
    unfold History.isCurrent
    rw [hworker, History.head, hfreshness]
  have hsame : i = history.length → history.trees i = history.head := fun h => by rw [h, History.head]
  rw [hjob, Bool.or_eq_true, beq_iff_eq, hcurrent, Bool.not_eq_true']
  cases (history.impact diff i).runnerReleaseBarrier
  · rw [if_neg (by decide), if_neg (by decide), hdiff.deployWorker_eq_false hi le_rfl]
    exact or_iff_right_of_imp fun h path _ => congrFun (hsame h) path
  · rw [if_pos rfl, if_pos rfl, hdiff.runnerReleaseBarrier_eq_false hi le_rfl]
    exact or_iff_right_of_imp fun h => congrFun (hsame h) _

theorem isAppBuildPath_release : isAppBuildPath "codex-runner/release.json" = true := by decide

theorem isCurrent_of_same (hdiff : Exact diff history) (hclassified : Classified diff history) {i : ℕ}
    (hi : i ≤ history.length) (hworker : (history.impact diff i).deployWorker = true)
    (hsame : SameWorkerInputs (history.trees i) history.head) : history.isCurrent diff i = true := by
  rw [isCurrent_iff hdiff hclassified hi hworker]
  split
  · exact hsame _ isAppBuildPath_release
  · exact hsame

/-- The job of the commit deploys its tree. -/
def History.Deploys (diff : Tree Blob → Tree Blob → List ChangedFile) (history : History Blob) (i : ℕ) : Prop :=
  (history.impact diff i).deployWorker = true ∧ history.isCurrent diff i = true

theorem leftDeployed_concat (order : List ℕ) (i : ℕ) : history.leftDeployed diff (order ++ [i]) =
    if (history.impact diff i).deployWorker && history.isCurrent diff i then some (history.trees i)
    else history.leftDeployed diff order := by
  rw [History.leftDeployed, List.foldl_append]
  rfl

theorem leftDeployed_cases (order : List ℕ) :
    (∃ i ∈ order, history.Deploys diff i ∧ history.leftDeployed diff order = some (history.trees i)) ∨
      history.leftDeployed diff order = none ∧ ∀ i ∈ order, ¬ history.Deploys diff i := by
  induction order using List.reverseRecOn with
  | nil => exact .inr ⟨rfl, fun i hi => absurd hi List.not_mem_nil⟩
  | append_singleton order i ih =>
    rw [leftDeployed_concat]
    by_cases hdeploys : history.Deploys diff i
    · rw [if_pos (by rw [Bool.and_eq_true]; exact hdeploys)]
      exact .inl ⟨i, by simp, hdeploys, rfl⟩
    · rw [if_neg (by rw [Bool.and_eq_true]; exact hdeploys)]
      rcases ih with ⟨j, hj, hdeployed, hleft⟩ | ⟨hleft, hnone⟩
      · exact .inl ⟨j, List.mem_append_left _ hj, hdeployed, hleft⟩
      · refine .inr ⟨hleft, fun j hj => ?_⟩
        rcases List.mem_append.mp hj with hj | hj
        · exact hnone j hj
        · exact List.mem_singleton.mp hj ▸ hdeploys

theorem same_of_no_deployment (hdiff : Exact diff history) (hclassified : Classified diff history)
    (hnone : ∀ i, 1 ≤ i → i ≤ history.length → ¬ history.Deploys diff i) {k : ℕ} (hk : k ≤ history.length) :
    SameWorkerInputs (history.trees (history.length - k)) history.head := by
  induction k with
  | zero => exact fun path _ => rfl
  | succ k ih =>
    have hsame := ih (by omega)
    obtain ⟨i, hi⟩ : ∃ i, history.length - k = i + 1 := ⟨history.length - k - 1, by omega⟩
    have hbefore : history.length - (k + 1) = i := by omega
    rw [hi] at hsame
    rw [hbefore]
    have hworker : (history.impact diff (i + 1)).deployWorker = false := by
      by_contra hworker
      rw [Bool.not_eq_false] at hworker
      exact hnone (i + 1) (by omega) (by omega)
        ⟨hworker, isCurrent_of_same hdiff hclassified (by omega) hworker hsame⟩
    have hstep := (hdiff.deployWorker_eq_false (Nat.le_succ i) (by omega)).mp hworker
    exact fun path hpath => (hstep path hpath).trans (hsame path hpath)

/-- **The Worker that the jobs leave, in any order, has the build inputs of the head**, or it is that of a Runner release
barrier whose release is still the one of the head; where none is deployed, no build input has changed. -/
theorem worker_converges (hdiff : Exact diff history) (hclassified : Classified diff history) {order : List ℕ}
    (horder : order.Perm (List.range' 1 history.length)) :
    (history.leftDeployed diff order = none → SameWorkerInputs (history.trees 0) history.head) ∧
      ∀ worker, history.leftDeployed diff order = some worker →
        SameWorkerInputs worker history.head ∨
          ∃ i, 1 ≤ i ∧ i ≤ history.length ∧ (history.impact diff i).runnerReleaseBarrier = true ∧
            worker = history.trees i ∧
            worker "codex-runner/release.json" = history.head "codex-runner/release.json" := by
  have hmem : ∀ i, i ∈ order ↔ 1 ≤ i ∧ i ≤ history.length := by
    intro i
    rw [horder.mem_iff, List.mem_range'_1]
    omega
  rcases @leftDeployed_cases _ diff history order with ⟨i, hi, hdeploys, hleft⟩ | ⟨hleft, hnone⟩
  · rw [hleft]
    refine ⟨fun h => (by cases h), ?_⟩
    rintro _ ⟨rfl⟩
    obtain ⟨hlow, hhigh⟩ := (hmem i).mp hi
    have hcurrent := (isCurrent_iff hdiff hclassified hhigh hdeploys.1).mp hdeploys.2
    by_cases hbarrier : (history.impact diff i).runnerReleaseBarrier = true
    · rw [if_pos hbarrier] at hcurrent
      exact .inr ⟨i, hlow, hhigh, hbarrier, rfl, hcurrent⟩
    · rw [if_neg hbarrier] at hcurrent
      exact .inl hcurrent
  · rw [hleft]
    refine ⟨fun _ => ?_, fun worker h => (by cases h)⟩
    have hsame := same_of_no_deployment hdiff hclassified (fun i hlow hhigh => hnone i ((hmem i).mpr ⟨hlow, hhigh⟩)) le_rfl
    rw [Nat.sub_self] at hsame
    exact hsame

end History

/-! ### A release barrier under a newer Worker input -/

/-- A tree of a Runner release and a page. -/
def releaseAndPage (release page : ℕ) : Tree ℕ := fun path =>
  if path = "codex-runner/release.json" then some release else if path = "app/page.tsx" then some page else none

theorem path_of_releaseAndPage {release page : ℕ} {path : String} (h : releaseAndPage release page path ≠ none) :
    path = "codex-runner/release.json" ∨ path = "app/page.tsx" := by
  unfold releaseAndPage at h
  split_ifs at h
  · exact .inl ‹_›
  · exact .inr ‹_›
  · exact absurd rfl h

def barrierTrees : ℕ → Tree ℕ
  | 0 => releaseAndPage 1 1
  | 1 => releaseAndPage 2 1
  | _ => releaseAndPage 2 2

theorem barrierTrees_eq (i : ℕ) : ∃ release page, barrierTrees i = releaseAndPage release page := by
  rcases i with _ | _ | i
  · exact ⟨1, 1, rfl⟩
  · exact ⟨2, 1, rfl⟩
  · exact ⟨2, 2, rfl⟩

theorem path_of_barrierTrees {i : ℕ} {path : String} (h : barrierTrees i path ≠ none) :
    path = "codex-runner/release.json" ∨ path = "app/page.tsx" := by
  obtain ⟨release, page, htree⟩ := barrierTrees_eq i
  rw [htree] at h
  exact path_of_releaseAndPage h

/-- The first commit raises the Runner release, the second changes a page. -/
def barrierHistory : History ℕ where
  trees := barrierTrees
  length := 2
  isGitPath i path h := by
    rcases path_of_barrierTrees h with rfl | rfl
    · exact ⟨by decide, by decide⟩
    · exact ⟨by decide, by decide⟩

def pathDiff (a b : Tree ℕ) : List ChangedFile :=
  (["codex-runner/release.json", "app/page.tsx"].filter fun path => a path ≠ b path).map fun path => ⟨path, none⟩

theorem barrierHistory_exact : Exact pathDiff barrierHistory := by
  intro i j _ _ path
  have hpaths : (pathDiff (barrierHistory.trees i) (barrierHistory.trees j)).flatMap
      (fun file => file.filename :: file.previousFilename.toList) =
      ["codex-runner/release.json", "app/page.tsx"].filter fun path =>
        barrierHistory.trees i path ≠ barrierHistory.trees j path := by
    rw [pathDiff, List.flatMap_map]
    exact List.flatMap_singleton' _
  rw [hpaths, List.mem_filter, decide_eq_true_eq, and_iff_right_iff_imp]
  intro hne
  have hpath : path = "codex-runner/release.json" ∨ path = "app/page.tsx" := by
    by_cases hi : barrierTrees i path = none
    · exact path_of_barrierTrees fun hj => hne (hi.trans hj.symm)
    · exact path_of_barrierTrees hi
  rcases hpath with rfl | rfl <;> simp

theorem barrierHistory_classified : Classified pathDiff barrierHistory := by
  intro i hlow hhigh
  have hlength : barrierHistory.length = 2 := rfl
  rw [hlength] at hhigh
  interval_cases i
  · decide +kernel
  · decide +kernel

theorem barrierHistory_converges : (barrierHistory.leftDeployed pathDiff [1, 2] = none →
        SameWorkerInputs (barrierHistory.trees 0) barrierHistory.head) ∧
      ∀ worker, barrierHistory.leftDeployed pathDiff [1, 2] = some worker →
        SameWorkerInputs worker barrierHistory.head ∨
          ∃ i, 1 ≤ i ∧ i ≤ barrierHistory.length ∧ (barrierHistory.impact pathDiff i).runnerReleaseBarrier = true ∧
            worker = barrierHistory.trees i ∧
            worker "codex-runner/release.json" = barrierHistory.head "codex-runner/release.json" :=
  worker_converges barrierHistory_exact barrierHistory_classified (List.Perm.refl _)

/-- The second job deploys the head, and then the first one its own tree with the older page. -/
theorem barrierHistory_stale : Exact pathDiff barrierHistory ∧ Classified pathDiff barrierHistory ∧
    [2, 1].Perm (List.range' 1 barrierHistory.length) ∧
    ∃ worker, barrierHistory.leftDeployed pathDiff [2, 1] = some worker ∧
      ¬ SameWorkerInputs worker barrierHistory.head := by
  refine ⟨barrierHistory_exact, barrierHistory_classified, by decide, barrierHistory.trees 1, ?_, ?_⟩
  · have hdeploys : ((barrierHistory.impact pathDiff 1).deployWorker && barrierHistory.isCurrent pathDiff 1) = true := by
      decide +kernel
    have horder : [2, 1] = [2] ++ [1] := rfl
    rw [horder, leftDeployed_concat, if_pos hdeploys]
  · intro h
    have hpage := h "app/page.tsx" (by decide)
    exact absurd hpage (by decide)

end ADT.Release
