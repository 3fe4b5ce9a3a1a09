import Mathlib.Algebra.Group.Int.Defs
import Questline.Console.Program
import Questline.Proofs.Games

/-!
# The boundary of the program

A program turns what goes wrong into an exit code: a game that fails says so and ends with code 1, and
a script that cannot be loaded is an issue.  A few faults get past this: the file of the settings and
the scripts that are looked through are read outside of it, a path may be too long to look at, and in a
game an integer may be too large.  Nothing else gets past.

* `Program.Escapes`: the faults that end a program at its beginning.
* `Game.Lasts`: a game ends, or it visits as many nodes as one likes.
* `Program.boundary_holds`: what becomes of a program, and of the faults in it.
-/

namespace Questline

open Json (Value Fields)

/-! ## Files that say nothing -/

/-- What keeps a file from being read, unless it is missing or unreadable: it holds no text, or its
path is none. -/
inductive FileTree.Baffles (files : FileTree) (path : Path) : Fault → Prop
  | undecodable {e : Utf8.DecodeFault} (h : files.readText path = .error (.decode e)) :
      Baffles files path (.undecodable e)
  | null {e : FileFault} (h : files.readText path = .error (.file e)) (null : e.cause = .nullCharacter) :
      Baffles files path (.file e)

/-- What keeps the issues of a file from being found. -/
inductive Library.Escapes (files : FileTree) (path : Path) : Fault → Prop
  | baffles {f : Fault} (h : files.Baffles path f) : Escapes files path f
  | script {text : String} {v : Value} {f : Fault} (h : files.readText path = .ok text)
      (hv : Json.read text = .ok v) (escapes : Script.Escapes path.stem v f) : Escapes files path f

section Files

variable {files : FileTree} {path : Path} {f : Fault}

/-- **The settings** are there unless their file baffles. -/
theorem Settings.load_eq_error_iff {w : Surroundings} :
    Settings.load w files path = .error f ↔ files.Baffles path f := by
  unfold Settings.load
  cases h : files.readText path with
  | ok text =>
    constructor
    · intro hl
      dsimp only at hl
      split at hl <;> cases hl
    · rintro (⟨h'⟩ | ⟨h', -⟩) <;> cases h.symm.trans h'
  | error e =>
    cases e with
    | decode e =>
      constructor
      · intro hl
        cases hl
        exact .undecodable h
      · rintro (⟨h'⟩ | ⟨h', -⟩) <;> cases h.symm.trans h'
        rfl
    | file e =>
      dsimp only
      constructor
      · intro hl
        split at hl
        case isTrue null =>
          cases hl
          exact .null h null
        case isFalse => cases hl
      · rintro (⟨h'⟩ | ⟨h', null⟩) <;> cases h.symm.trans h'
        rw [if_pos null]

/-- **The issues of a file** are found unless it baffles or holds a script that escapes. -/
theorem Library.fileIssues_eq_error_iff_escapes :
    Library.fileIssues files path = .error f ↔ Library.Escapes files path f := by
  cases h : files.readText path with
  | ok text =>
    rw [fileIssues_eq_error_iff h]
    constructor
    · rintro ⟨v, hv, escapes⟩
      exact .script h hv escapes
    · rintro (⟨⟨h'⟩ | ⟨h', -⟩⟩ | ⟨h', hv, escapes⟩) <;> cases h.symm.trans h'
      exact ⟨_, hv, escapes⟩
  | error e =>
    have unread {f' : Fault} (hl : loadJson files path = .error f') (other : ∀ d, f' ≠ .data d) :
        Library.fileIssues files path = .error f' := by
      rw [Library.fileIssues, hl]
      cases f' with
      | data d => exact absurd rfl (other d)
      | _ => rfl
    constructor
    · intro hi
      cases e with
      | decode e =>
        cases hi.symm.trans (unread (by rw [loadJson, h]) (by simp))
        exact .baffles (.undecodable h)
      | file e =>
        by_cases null : e.cause = .nullCharacter
        · have hl : loadJson files path = .error (.file e) := by simp only [loadJson, h, null]
          cases hi.symm.trans (unread hl (by simp))
          exact .baffles (.null h null)
        · have issued : ∃ d, loadJson files path = .error (.data d) := by
            simp only [loadJson, h]
            split
            · exact ⟨_, rfl⟩
            case h_2 hc => exact absurd hc null
            · exact ⟨_, rfl⟩
          obtain ⟨d, hl⟩ := issued
          rw [Library.fileIssues, hl] at hi
          cases hi
    · rintro (⟨h' | ⟨h', null⟩⟩ | ⟨h', -, -⟩)
      · exact unread (by rw [loadJson, h']) (by simp)
      · exact unread (by simp only [loadJson, h', null]) (by simp)
      · cases h.symm.trans h'

end Files

/-! ## Looking scripts through -/

/-- The issues of a file, as far as they can be found. -/
def Library.issuesOf (files : FileTree) (path : String) : List Issue :=
  (Library.fileIssues files (.ofString path)).toOption.getD []

namespace Program

/-- **Scripts are looked through**: each has its lines, and the code says whether one has errors. -/
theorem validate_eq {files : FileTree} {failed : Bool} {paths : List String}
    (found : ∀ path ∈ paths, ∃ issues, Library.fileIssues files (.ofString path) = .ok issues) :
    validate files failed paths =
      (.ended (if failed || paths.any fun path => hasErrors (Library.issuesOf files path) then 1 else 0),
        String.join (paths.map fun path => issuesText path (Library.issuesOf files path))) := by
  induction paths generalizing failed with
  | nil => simp [validate]
  | cons path paths ih =>
    obtain ⟨issues, hi⟩ := found path List.mem_cons_self
    have same : Library.issuesOf files path = issues := by rw [Library.issuesOf, hi]; rfl
    rw [validate, hi]
    dsimp only
    rw [ih fun path hp => found path (List.mem_cons_of_mem _ hp)]
    simp [same, Bool.or_assoc, String.join_cons]

/-- The first script whose issues are not found ends the program. -/
theorem validate_crashed {files : FileTree} {failed : Bool} {before after : List String} {path : String}
    {f : Fault}
    (found : ∀ path ∈ before, ∃ issues, Library.fileIssues files (.ofString path) = .ok issues)
    (lost : Library.fileIssues files (.ofString path) = .error f) :
    (validate files failed (before ++ path :: after)).1 = .crashed f := by
  induction before generalizing failed with
  | nil => rw [List.nil_append, validate, lost]
  | cons first before ih =>
    obtain ⟨issues, hi⟩ := found first List.mem_cons_self
    rw [List.cons_append, validate, hi]
    exact ih fun path hp => found path (List.mem_cons_of_mem _ hp)

/-- Either all scripts are looked through, or there is a first one that is not. -/
theorem found_or_lost (files : FileTree) (paths : List String) :
    (∀ path ∈ paths, ∃ issues, Library.fileIssues files (.ofString path) = .ok issues) ∨
      ∃ before path after f, paths = before ++ path :: after ∧
        (∀ path ∈ before, ∃ issues, Library.fileIssues files (.ofString path) = .ok issues) ∧
        Library.fileIssues files (.ofString path) = .error f := by
  induction paths with
  | nil => exact .inl fun path hp => by cases hp
  | cons first paths ih =>
    cases hi : Library.fileIssues files (.ofString first) with
    | error f => exact .inr ⟨[], first, paths, f, rfl, by simp, hi⟩
    | ok issues =>
      rcases ih with found | ⟨before, path, after, f, rfl, found, lost⟩
      · refine .inl fun path hp => ?_
        rcases List.mem_cons.1 hp with rfl | hp
        · exact ⟨issues, hi⟩
        · exact found path hp
      · refine .inr ⟨first :: before, path, after, f, rfl, fun path hp => ?_, lost⟩
        rcases List.mem_cons.1 hp with rfl | hp
        · exact ⟨issues, hi⟩
        · exact found path hp

end Program

/-! ## Going on -/

namespace Game

/-- The fault that has ended a game. -/
def fault? (g : Game) : Option Fault :=
  match g.stage with
  | .crashed _ f => some f
  | _ => none

/-- The code that a game has ended with. -/
def code? (g : Game) : Option Nat :=
  match g.stage with
  | .over _ code => some code
  | _ => none

/-- Whether a node is about to be visited. -/
def isVisiting (g : Game) : Bool :=
  match g.stage with
  | .turn ⟨_, _, .work (.visit _ _ _)⟩ => true
  | _ => false

/-- With these lines a game ends, or it visits so many nodes before. -/
inductive Lasts : Nat → List String → Game → Prop
  | ended {n : Nat} {ls : List String} {g : Game} (past : g.code?.isSome ∨ g.fault?.isSome) : Lasts n ls g
  | enough {ls : List String} {g : Game} : Lasts 0 ls g
  | visit {n : Nat} {ls : List String} {g g' : Game} {shown : String} (visiting : g.isVisiting)
      (hn : g.next? = some (g', shown)) (h : Lasts n ls g') : Lasts (n + 1) ls g
  | move {n : Nat} {ls : List String} {g g' : Game} {shown : String}
      (hn : g.next? = some (g', shown)) (h : Lasts n ls g') : Lasts n ls g
  | line {n : Nat} {l : String} {ls : List String} {g : Game} {p : Prompt} (asked : g.prompt? = some p)
      (h : Lasts n ls (g.line (some l)).1) : Lasts n (l :: ls) g
  | stop {n : Nat} {g : Game} {p : Prompt} (asked : g.prompt? = some p)
      (h : Lasts n [] (g.line none).1) : Lasts n [] g

variable {c : Console} {t : Turn} {g g' : Game} {n : Nat} {ls : List String}

/-- A game lasts as its turn does. -/
theorem lasts_of_comes {Q : Console → Turn → Prop} {stage : Turn → Stage}
    (hs : stage = .turn ∨ stage = .stopping) (comes : Turn.Comes Q c t)
    (h : ∀ c t, Q c t → Lasts n ls ⟨c, stage t⟩) : Lasts n ls ⟨c, stage t⟩ := by
  induction comes with
  | here holds => exact h _ _ holds
  | @move c t next goes _ ih =>
    rcases hs with rfl | rfl
    · exact .move (next?_turn (goes t.session.files)) (ih t.session.files)
    · exact .move (next?_stopping (goes t.session.files)) (ih t.session.files)
  | @ask c s stack a _ ih => rcases hs with rfl | rfl <;> exact .move rfl (ih s.files)

theorem lasts_of_quits (comes : Turn.Comes Turn.Quits c t) : Lasts n ls ⟨c, .stopping t⟩ := by
  refine lasts_of_comes (.inr rfl) comes fun c t quits => ?_
  cases quits with
  | rests settles => exact .move rfl (.ended (.inl rfl))

/-- **A game ends, or it goes on from node to node.** -/
theorem Fair.lasts (h : g.Fair) (n : Nat) (ls : List String) : Lasts n ls g := by
  induction n generalizing g ls with
  | zero => exact .enough
  | succ n ihn =>
    -- It only matters what becomes of a prompt, which takes up the lines one by one.
    have goesOn {ls : List String} (asked : ∀ c s p, c.Awaits s p → Lasts (n + 1) ls ⟨c, .prompt s p⟩)
        {g : Game} (h : g.Fair) : Lasts (n + 1) ls g := by
      cases h with
      | turn comes =>
        refine lasts_of_comes (.inl rfl) comes fun c t halts => ?_
        cases halts with
        | @rests s result agrees =>
          have hn : next? ⟨c, .turn ⟨s, [], .done result⟩⟩ = some ((Game.rest c s).1, (Game.rest c s).2) := rfl
          refine .move hn ?_
          rcases rest_cases agrees with ⟨p, awaits, eq⟩ | closed
          · rw [eq]
            exact asked _ _ _ awaits
          · rw [closed]
            exact .ended (.inl rfl)
        | @fails s f agrees usual =>
          have hn : next? ⟨c, .turn ⟨s, [], .failed f⟩⟩ =
            some ((Game.failed c s.files f).1, (Game.failed c s.files f).2) := rfl
          refine .move hn ?_
          unfold Game.failed
          split
          · exact .ended (.inl rfl)
          · exact .ended (.inr rfl)
        | visits has going inGraph houses =>
          have fair : Fair ⟨c, .turn _⟩ := .turn (.here (.visits has going inGraph houses))
          exact .visit rfl rfl (ihn (fair.next rfl) ls)
      | prompt awaits => exact asked _ _ _ awaits
      | stopping comes => exact lasts_of_quits comes
      | ended => exact .ended (.inl rfl)
      | crashed => exact .ended (.inr rfl)
    induction ls generalizing g with
    | nil =>
      refine goesOn (fun c s p awaits => .stop rfl ?_) h
      cases Fair.line (.prompt awaits) none with
      | stopping comes => exact lasts_of_quits comes
    | cons l ls ih =>
      exact goesOn (fun c s p awaits => .line rfl (ih (Fair.line (.prompt awaits) (some l)))) h

/-- A run that is stopped ends the game. -/
theorem steps_of_quits (comes : Turn.Comes Turn.Quits c t) :
    ∃ k, (steps k ⟨c, .stopping t⟩).code? = some 130 := by
  induction comes with
  | here holds =>
    cases holds with
    | rests settles => exact ⟨1, rfl⟩
  | @move c t next goes _ ih =>
    obtain ⟨k, hk⟩ := ih t.session.files
    exact ⟨k + 1, (congrArg code? (steps_succ (next?_stopping (goes t.session.files)) k)).trans hk⟩
  | @ask c s stack a _ ih =>
    obtain ⟨k, hk⟩ := ih s.files
    exact ⟨k + 1, hk⟩

/-- The end of the lines ends the game. -/
theorem Fair.stops (h : g.Fair) {p : Prompt} (asked : g.prompt? = some p) :
    ∃ k, ((g.line none).1.steps k).code? = some 130 := by
  cases h with
  | prompt awaits =>
    cases Fair.line (.prompt awaits) none with
    | stopping comes => exact steps_of_quits comes
  | turn | stopping | ended | crashed => cases asked

end Game

/-! ## Preparing a game -/

theorem readEach_failsWith {p : Fault → Prop} {α : Type} {read : Subject → Value → Except Fault α}
    (h : ∀ subject v, FailsWith p (read subject v)) (list : Subject) (index : Nat) (vs : List Value) :
    FailsWith p (readEach read list index vs) := by
  induction vs generalizing index with
  | nil => exact .ok _
  | cons v vs ih => exact (h _ _).bind fun a => (ih _).bind fun as => .pure _

namespace Tutorial

theorem readMessage_refuses (subject : Subject) (v : Value) : Refuses (readMessage subject v) := by
  unfold readMessage
  split
  · split
    · refine FailsWith.bind ?_ fun delay => .pure _
      unfold readDelay
      split
      · split
        · exact unmet_refuses _ _
        · exact .ok _
      · exact unmet_refuses _ _
    · exact unmet_refuses _ _
  · exact unmet_refuses _ _

theorem catalogOf_refuses (catalog : Fields) : Refuses (catalogOf catalog) := by
  refine FailsWith.bind (requireObject_refuses _ _) fun fields => ?_
  induction fields with
  | nil => exact .ok _
  | cons e fields ih =>
    refine FailsWith.bind ?_ fun t => ih.bind fun ts => .pure _
    exact (requireObject_refuses _ _).bind fun fields => (requireList_refuses _ _).bind fun raw =>
      (readEach_failsWith readMessage_refuses _ _ _).bind fun messages => .pure _

end Tutorial

namespace FlagStore

theorem readFlags_reported (path : Path) (fields : Fields) : IsReported (readFlags path fields) := by
  induction fields with
  | nil => exact .ok _
  | cons e fields ih =>
    unfold readFlags
    split
    · exact .error rfl
    · exact ih.map _

theorem readFile_reported (files : FileTree) (path : Path) : IsReported (readFile files path) := by
  unfold readFile
  split
  · exact .error rfl
  case h_2 e _ =>
    split
    · exact .ok _
    case h_2 null =>
      refine .error ?_
      simp [Fault.isReported, null]
    · exact .error rfl
  · split
    · exact .error rfl
    · exact readFlags_reported _ _
    · exact .error rfl

theorem open_reported (files : FileTree) (path : Option Path) : IsReported (FlagStore.open files path) := by
  cases path with
  | none => exact .ok _
  | some path => exact (readFile_reported files path).map _

end FlagStore

namespace Program

variable {w : Surroundings} {files : FileTree} {settings : Settings} {i : Invocation}

theorem tutorialGraph_reported (catalog : Path) (id : Option String) :
    IsReported (tutorialGraph files catalog id) := by
  refine (loadJson_reported _ _).bind fun v => ?_
  split
  · have refuses := Tutorial.catalogOf_refuses
    refine FailsWith.bind ((refuses _).mono fun f hf => ?_) fun tutorials => ?_
    · cases f with
      | data => rfl
      | _ => cases hf
    · split
      · exact Graph.ofScript_reported _
      · exact .error rfl
  · exact .error rfl

theorem isWhole_of_tutorialGraph {catalog : Path} {id : Option String} {graph : Graph}
    (h : tutorialGraph files catalog id = .ok graph) : graph.IsWhole := by
  simp only [tutorialGraph, bind, Except.bind] at h
  split at h
  · cases h
  · split at h
    · split at h
      · cases h
      · split at h
        · exact Graph.isWhole_of_ofScript h
        · cases h
    · cases h

/-- The flags that a game begins with. -/
def openFlags (files : FileTree) (settings : Settings) (o : SessionOptions) : Except Fault FlagStore :=
  FlagStore.open files (some (.ofString (given o.flags settings.flags)))

/-- What playing needs before a game can begin: the flags, and for a tutorial its graph. -/
def prepare (files : FileTree) (settings : Settings) : Command → Except Fault Unit
  | .validate _ => .ok ()
  | .play o _ => openFlags files settings o >>= fun _ => .ok ()
  | .tutorial o catalog id =>
    openFlags files settings o >>= fun _ => (tutorialGraph files catalog id).map fun _ => ()

/-! ## The beginning -/

/-- The faults that end a program at its beginning: of the settings, of the first script to be looked
through whose issues are not found, or of a path that is too long to look at. -/
inductive Escapes (w : Surroundings) (files : FileTree) (i : Invocation) : Fault → Prop
  | settings {f : Fault} (h : files.Baffles (settingsFile w i) f) : Escapes w files i f
  | script {settings : Settings} {before after : List String} {path : String} {f : Fault}
      (read : Settings.load w files (settingsFile w i) = .ok settings)
      (command : i.command = .validate (before ++ path :: after))
      (found : ∀ path ∈ before, ¬∃ f, Library.Escapes files (.ofString path) f)
      (lost : Library.Escapes files (.ofString path) f) : Escapes w files i f
  | path {settings : Settings} {o : SessionOptions} {script : String} {e : FileFault}
      (read : Settings.load w files (settingsFile w i) = .ok settings)
      (command : i.command = .play o script) (long : files.isFile (.ofString script) = .error e) :
      Escapes w files i (.file e)

/-- How a program begins, and what it shows: it crashes, it has looked scripts through, it could not
prepare a game, or it plays one. -/
inductive Begins (w : Surroundings) (files : FileTree) (i : Invocation) : Program → String → Prop
  | crashed {f : Fault} {shown : String} (escapes : Escapes w files i f) :
      Begins w files i (.crashed f) shown
  | unplayed {c : Console} {f : Fault} (escapes : Escapes w files i f) :
      Begins w files i (.playing ⟨c, .crashed files f⟩) ""
  | ended {settings : Settings} {scripts : List String}
      (read : Settings.load w files (settingsFile w i) = .ok settings)
      (command : i.command = .validate scripts)
      (found : ∀ path ∈ scripts, ∃ issues, Library.fileIssues files (.ofString path) = .ok issues) :
      Begins w files i
        (.ended (if scripts.any fun path => hasErrors (Library.issuesOf files path) then 1 else 0))
        (String.join (scripts.map fun path => issuesText path (Library.issuesOf files path)))
  | refused {settings : Settings} {c : Console} {f : Fault}
      (read : Settings.load w files (settingsFile w i) = .ok settings)
      (prepared : prepare files settings i.command = .error f) :
      Begins w files i (.playing ⟨c, .over files 1⟩) (Game.faultText f)
  | playing {settings : Settings} {g : Game}
      (read : Settings.load w files (settingsFile w i) = .ok settings)
      (plays : ∀ scripts, i.command ≠ .validate scripts)
      (prepared : prepare files settings i.command = .ok ()) (opens : g.Opens) :
      Begins w files i (.playing g) ""

theorem isFile_eq_error {path : Path} {e : FileFault} (h : files.isFile path = .error e) :
    Fault.isReported (.file e) = false := by
  unfold FileTree.isFile FileTree.look at h
  split at h
  · cases h
  · split at h
    case isTrue long =>
      cases h
      simp [Fault.isReported, long]
    case isFalse => cases h

section Play

variable {o : SessionOptions} {library : Path} {first : Except Fault Entry}

/-- **A game begins**, or what it needs is said to have failed. -/
theorem play_begins (read : Settings.load w files (settingsFile w i) = .ok settings)
    (plays : ∀ scripts, i.command ≠ .validate scripts)
    (prepared : prepare files settings i.command =
      openFlags files settings o >>= fun _ => first.map fun _ => ())
    (reported : IsReported first)
    (opens : ∀ entry c flags, first = .ok entry → c.npcs = [] →
      (Game.begin c (.fresh files library flags) entry).Opens) :
    Begins w files i (.playing (play w files settings o library first).1)
      (play w files settings o library first).2 := by
  have refused {f : Fault} (hf : f.isReported) (hp : prepare files settings i.command = .error f) :
      Begins w files i (.playing (Game.failed (consoleOf w settings o) files f).1)
        (Game.failed (consoleOf w settings o) files f).2 := by
    rw [Game.failed, if_pos hf]
    exact .refused read hp
  unfold play
  cases opened : openFlags files settings o with
  | error f =>
    rw [opened] at prepared
    unfold openFlags at opened
    rw [opened]
    exact refused (FlagStore.open_reported _ _ f opened) prepared
  | ok flags =>
    rw [opened] at prepared
    unfold openFlags at opened
    rw [opened]
    cases first with
    | error f => exact refused (reported f rfl) prepared
    | ok entry => exact .playing read plays prepared (opens entry _ flags rfl rfl)

end Play

/-- **The beginning of a program.** -/
theorem begins {args : List String} (accepted : Command.ofArguments args = .ok i) :
    Begins w files i (Program.begin w files args).1 (Program.begin w files args).2 := by
  simp only [Program.begin, accepted]
  cases read : Settings.load w files (settingsFile w i) with
  | error f => exact .crashed (.settings (Settings.load_eq_error_iff.1 read))
  | ok settings =>
    cases command : i.command with
    | validate scripts =>
      rcases found_or_lost files scripts with found | ⟨before, path, after, f, rfl, found, lost⟩
      · simp only [perform]
        rw [validate_eq found]
        exact .ended read command found
      · have escapes : Escapes w files i f := by
          refine .script read command (fun path hp ⟨f, hf⟩ => ?_)
            (Library.fileIssues_eq_error_iff_escapes.1 lost)
          obtain ⟨issues, hi⟩ := found path hp
          cases hi.symm.trans (Library.fileIssues_eq_error_iff_escapes.2 hf)
        simp only [perform, validate_crashed found lost]
        exact .crashed escapes
    | play o script =>
      have starts (entry : Entry) (c : Console) (flags : FlagStore) (library : Path) (id : String)
          (he : Except.ok (.start id (some ledgerCallback)) = (Except.ok entry : Except Fault Entry))
          (empty : c.npcs = []) : (Game.begin c (.fresh files library flags) entry).Opens := by
        cases he
        exact .start empty
      simp only [perform, playScript]
      cases looked : files.isFile (.ofString script) with
      | error e =>
        dsimp only
        rw [Game.failed, if_neg (by simp [isFile_eq_error looked])]
        exact .unplayed (.path read command looked)
      | ok there =>
        have prepared : prepare files settings i.command =
            openFlags files settings o >>= fun _ => .ok () := congrArg _ command
        cases there with
        | true => exact play_begins read (by simp [command]) prepared (.ok _) fun _ _ _ => starts _ _ _ _ _
        | false => exact play_begins read (by simp [command]) prepared (.ok _) fun _ _ _ => starts _ _ _ _ _
    | tutorial o catalog id =>
      simp only [perform, playTutorial]
      refine play_begins read (by simp [command]) ?_ ((tutorialGraph_reported catalog id).map _)
        fun entry c flags he empty => ?_
      · rw [command, prepare]
        cases openFlags files settings o with
        | error f => rfl
        | ok flags => cases tutorialGraph files catalog id <;> rfl
      · cases built : tutorialGraph files catalog id with
        | error f =>
          rw [built] at he
          cases he
        | ok graph =>
          rw [built] at he
          cases he
          exact .startGraph empty (isWhole_of_tutorialGraph built)

/-! ## What becomes of a program -/

/-- The fault that has ended a program. -/
def fault? : Program → Option Fault
  | .crashed f => some f
  | .playing g => g.fault?
  | .usage _ | .ended _ => none

/-- The code that a program has ended with. -/
def code? : Program → Option Nat
  | .usage code | .ended code => some code
  | .playing g => g.code?
  | .crashed _ => none

/-- What a program goes on to. -/
inductive GoesOn : Program → Program → Prop
  | refl (p : Program) : GoesOn p p
  | playing {g g' : Game} (h : g.Reaches g') : GoesOn (.playing g) (.playing g')

/-- **What becomes of a program** that begins as `p` and shows a text. -/
structure Bounded (w : Surroundings) (files : FileTree) (i : Invocation) (p : Program)
    (shown : String) : Prop where
  /-- It crashes at once just if a fault escapes. -/
  crashed_iff : ∀ f, p.fault? = some f ↔ Escapes w files i f
  /-- It crashes later only because an integer is too large. -/
  crashes : ∀ p' f, p.GoesOn p' → p'.fault? = some f → p.fault? = some f ∨ f = .tooLarge
  /-- Otherwise it ends with a code of its own. -/
  codes : ∀ p' code, p.GoesOn p' → p'.code? = some code → code ∈ [0, 1, 130]
  /-- What cannot be prepared is said to have failed. -/
  refused : ∀ settings f, Settings.load w files (settingsFile w i) = .ok settings →
    prepare files settings i.command = .error f → p.fault? = none →
    p.code? = some 1 ∧ shown = Console.line ("Script failed: " ++ f.message)
  /-- So is what fails in a game. -/
  failures : ∀ c s f, p.GoesOn (.playing ⟨c, .turn ⟨s, [], .failed f⟩⟩) → f = .tooLarge ∨
    Game.next? ⟨c, .turn ⟨s, [], .failed f⟩⟩ =
      some (⟨c, .over s.files 1⟩, Console.line ("Script failed: " ++ f.message))
  /-- Scripts are looked through; one that cannot be loaded is an issue, and it is an error. -/
  issues : ∀ scripts, i.command = .validate scripts → p.fault? = none →
    p = .ended (if scripts.any fun path => hasErrors (Library.issuesOf files path) then 1 else 0) ∧
      shown = String.join (scripts.map fun path => issuesText path (Library.issuesOf files path)) ∧
      ∀ path ∈ scripts, ∀ d,
        (loadJson files (.ofString path) >>= Script.ofValue (Path.ofString path).stem) = .error (.data d) →
          Library.issuesOf files path = [⟨(Path.ofString path).stem, .notLoaded d⟩] ∧ p.code? = some 1
  /-- A game ends, or it goes on from node to node. -/
  lasts : ∀ g, p = .playing g → ∀ n ls, g.Lasts n ls
  /-- The end of the lines ends it. -/
  stops : ∀ g prompt, p.GoesOn (.playing g) → g.prompt? = some prompt →
    ∃ k, ((g.line none).1.steps k).code? = some 130

theorem found_of_not_escapes {path : Path} (h : ¬∃ f, Library.Escapes files path f) :
    ∃ issues, Library.fileIssues files path = .ok issues := by
  cases hi : Library.fileIssues files path with
  | ok issues => exact ⟨issues, rfl⟩
  | error f => exact absurd ⟨f, Library.fileIssues_eq_error_iff_escapes.1 hi⟩ h

/-- A fault that escapes ends the program. -/
theorem Escapes.fault?_begin {args : List String} (accepted : Command.ofArguments args = .ok i) {f : Fault}
    (h : Escapes w files i f) : (Program.begin w files args).1.fault? = some f := by
  simp only [Program.begin, accepted]
  cases h with
  | settings baffles => rw [Settings.load_eq_error_iff.2 baffles]; rfl
  | script read command found lost =>
    rw [read, command]
    simp only [perform]
    rw [validate_crashed (fun path hp => found_of_not_escapes (found path hp))
      (Library.fileIssues_eq_error_iff_escapes.2 lost)]
    rfl
  | path read command long =>
    rw [read, command]
    simp only [perform, playScript, long]
    rw [Game.failed, if_neg (by simp [isFile_eq_error long])]
    rfl

end Program

namespace Game.Fair

variable {g : Game}

theorem fault?_eq (h : g.Fair) {f : Fault} (hf : g.fault? = some f) : f = .tooLarge := by
  cases h with
  | crashed =>
    cases hf
    rfl
  | turn | prompt | stopping | ended => cases hf

theorem code?_mem (h : g.Fair) {code : Nat} (hc : g.code? = some code) : code ∈ [0, 1, 130] := by
  cases h with
  | ended known =>
    cases hc
    exact known
  | turn | prompt | stopping | crashed => cases hc

theorem isUsual {c : Console} {s : Session} {f : Fault}
    (h : Game.Fair ⟨c, .turn ⟨s, [], .failed f⟩⟩) : f.isUsual := by
  cases h with
  | turn comes =>
    cases comes with
    | here holds =>
      cases holds with
      | fails agrees usual => exact usual
    | move goes h => cases goes s.files

end Game.Fair

theorem Game.eq_of_reaches_crashed {c : Console} {files : FileTree} {f : Fault} {g : Game}
    (h : Game.Reaches ⟨c, .crashed files f⟩ g) : ∃ files, g = ⟨c, .crashed files f⟩ := by
  induction h with
  | refl => exact ⟨files, rfl⟩
  | tail _ hs ih =>
    obtain ⟨files, rfl⟩ := ih
    cases hs with
    | next hn => cases hn
    | line l => exact ⟨files, rfl⟩
    | change files' => exact ⟨files', rfl⟩

namespace Program

variable {w : Surroundings} {files : FileTree} {i : Invocation} {p : Program} {shown : String}

/-- A fair game stays within the boundary. -/
theorem bounded_of_fair {g : Game} (fair : g.Fair) (none : ∀ f, ¬Escapes w files i f)
    (plays : ∀ scripts, i.command ≠ .validate scripts) (steady : g.fault? = Option.none)
    (refused : ∀ settings f, Settings.load w files (settingsFile w i) = .ok settings →
      prepare files settings i.command = .error f →
      g.code? = some 1 ∧ shown = Console.line ("Script failed: " ++ f.message)) :
    Bounded w files i (.playing g) shown where
  crashed_iff f := by
    constructor
    · intro hf
      cases steady.symm.trans hf
    · intro escapes
      exact absurd escapes (none f)
  crashes p' f goes hf := by
    cases goes with
    | refl => exact .inl hf
    | playing reaches => exact .inr ((fair.reaches reaches).fault?_eq hf)
  codes p' code goes hc := by
    cases goes with
    | refl => exact fair.code?_mem hc
    | playing reaches => exact (fair.reaches reaches).code?_mem hc
  refused settings f read prepared _ := refused settings f read prepared
  failures c s f goes := by
    have usual : f.isUsual := by
      cases goes with
      | refl => exact fair.isUsual
      | playing reaches => exact (fair.reaches reaches).isUsual
    rcases usual with reported | large
    · exact .inr (by simp only [Game.next?, Turn.next?, Game.failed, if_pos reported]; rfl)
    · exact .inl large
  issues scripts command := absurd command (plays scripts)
  lasts g' hg n ls := by
    cases hg
    exact fair.lasts n ls
  stops g' prompt goes asked := by
    cases goes with
    | refl => exact fair.stops asked
    | playing reaches => exact (fair.reaches reaches).stops asked

/-- A program that has crashed does nothing more. -/
theorem bounded_of_escapes {f : Fault} (certain : ∀ f, Escapes w files i f → p.fault? = some f)
    (escapes : Escapes w files i f) (fault : p.fault? = some f)
    (still : ∀ p', p.GoesOn p' → p'.fault? = some f) : Bounded w files i p shown where
  crashed_iff f' := by
    refine ⟨fun hf => ?_, certain f'⟩
    cases fault.symm.trans hf
    exact escapes
  crashes p' f' goes hf := .inl (fault.trans ((still p' goes).symm.trans hf))
  codes p' code goes hc := by
    have crashed := still p' goes
    cases p' with
    | crashed => cases hc
    | usage | ended => cases crashed
    | playing g =>
      obtain ⟨c, stage⟩ := g
      cases stage with
      | crashed => cases hc
      | _ => cases crashed
  refused settings f' _ _ none := by cases fault.symm.trans none
  failures c s f' goes := by cases still _ goes
  issues scripts _ none := by cases fault.symm.trans none
  lasts g hg n ls := by
    subst hg
    exact .ended (.inr (Option.isSome_iff_exists.2 ⟨f, fault⟩))
  stops g prompt goes asked := by
    have crashed := still _ goes
    obtain ⟨c, stage⟩ := g
    cases stage with
    | prompt => cases crashed
    | _ => cases asked

/-- Scripts that are all looked through end the program. -/
theorem bounded_of_found {scripts : List String} (command : i.command = .validate scripts)
    (certain : ∀ f, ¬Escapes w files i f) :
    Bounded w files i
      (.ended (if scripts.any fun path => hasErrors (Library.issuesOf files path) then 1 else 0))
      (String.join (scripts.map fun path => issuesText path (Library.issuesOf files path))) where
  crashed_iff f := by
    refine ⟨fun hf => ?_, fun escapes => absurd escapes (certain f)⟩
    cases hf
  crashes p' f goes hf := by
    cases goes
    cases hf
  codes p' code goes hc := by
    cases goes
    obtain rfl := Option.some.inj hc
    split <;> simp
  refused settings f _ prepared _ := by
    rw [command] at prepared
    cases prepared
  failures c s f goes := by cases goes
  issues scripts' command' _ := by
    cases command.symm.trans command'
    refine ⟨rfl, rfl, fun path hp d refused => ?_⟩
    have listed : Library.issuesOf files path = [⟨(Path.ofString path).stem, .notLoaded d⟩] := by
      rw [Library.issuesOf, Library.fileIssues, refused]
      rfl
    have bad : (scripts.any fun path => hasErrors (Library.issuesOf files path)) = true :=
      List.any_eq_true.2 ⟨path, hp, by rw [listed]; rfl⟩
    exact ⟨listed, by rw [bad]; rfl⟩
  lasts g hg := by cases hg
  stops g prompt goes := by cases goes

theorem Begins.bounded (h : Begins w files i p shown)
    (certain : ∀ f, Escapes w files i f → p.fault? = some f) : Bounded w files i p shown := by
  cases h with
  | crashed escapes =>
    refine bounded_of_escapes certain escapes rfl fun p' goes => ?_
    cases goes
    rfl
  | unplayed escapes =>
    refine bounded_of_escapes certain escapes rfl fun p' goes => ?_
    cases goes with
    | refl => rfl
    | playing reaches =>
      obtain ⟨files, rfl⟩ := Game.eq_of_reaches_crashed reaches
      rfl
  | ended read command found => exact bounded_of_found command fun f escapes => by cases certain f escapes
  | @refused settings c f read prepared =>
    refine bounded_of_fair (.ended (by simp)) (fun f escapes => ?_) (fun scripts command => ?_) rfl ?_
    · cases certain f escapes
    · rw [command] at prepared
      cases prepared
    · intro settings' f' read' prepared'
      cases read.symm.trans read'
      cases prepared.symm.trans prepared'
      exact ⟨rfl, rfl⟩
  | @playing settings g read plays prepared opens =>
    have begun : g.fault? = none := by cases opens <;> rfl
    refine bounded_of_fair opens.fair (fun f escapes => ?_) plays begun ?_
    · cases begun.symm.trans (certain f escapes)
    · intro settings' f' read' prepared'
      cases read.symm.trans read'
      cases prepared.symm.trans prepared'

/-- **The boundary of the program.** -/
theorem boundary_holds {args : List String} (accepted : Command.ofArguments args = .ok i) :
    Bounded w files i (Program.begin w files args).1 (Program.begin w files args).2 :=
  (begins accepted).bounded fun _ escapes => escapes.fault?_begin accepted

/-! ### What gets past the boundary -/

/-- Where a program runs that nothing is known of. -/
def nowhere : Surroundings := { home := .ofString "home", installed := .ofString "questline" }

/-- A catalog that is missing is said to be. -/
theorem missing_catalog_bounded :
    let args := ["tutorial", "gone.json", "start"]
    let i : Invocation := { command := .tutorial {} (.ofString "gone.json") (some "start") }
    let begun := Program.begin nowhere (.empty []) args
    Command.ofArguments args = .ok i ∧ begun.1.code? = some 1 ∧
      begun.2 = "Script failed: Script file not found: gone.json\n" ∧
      Bounded nowhere (.empty []) i begun.1 begun.2 := by
  intro args i begun
  have accepted : Command.ofArguments args = .ok i := ok_of_toOption (by decide +kernel)
  exact ⟨accepted, by decide +kernel, by decide +kernel, boundary_holds accepted⟩

/-- A directory with a file that is no text, and a script. -/
def oddFiles : FileTree :=
  ((FileTree.empty []).store ["odd.json"] (.file [0xff])).store ["x.json"]
    (.file (Utf8.encode "\x7b\x7d".toList))

/-- A script that shows an image for longer than any time. -/
def eternity : Graph :=
  let image : Node := ⟨"image", .image { path := "image.png", duration := .int (10 ^ 400) }⟩
  { script := { id := "eternity", nodes := [image] }, entry := image }

/-- **Settings that are no text, a script that is none, and an integer that is too large** get past the
boundary. -/
theorem odd_settings_crash :
    let settings := ["--config", "odd.json", "validate", "x.json"]
    let script := ["validate", "odd.json"]
    let game := Game.begin {} (.fresh (.empty []) (.ofString "scripts") {}) (.startGraph eternity none)
    Command.ofArguments settings =
        .ok { settings := some (.ofString "odd.json"), command := .validate ["x.json"] } ∧
      (Program.begin nowhere oddFiles settings).1.fault? = some (.undecodable ⟨.startByte, 0xff, 0, 1⟩) ∧
      Command.ofArguments script = .ok { command := .validate ["odd.json"] } ∧
      (Program.begin nowhere oddFiles script).1.fault? = some (.undecodable ⟨.startByte, 0xff, 0, 1⟩) ∧
      game.Opens ∧ (game.steps 20).fault? = some .tooLarge := by
  intro settings script game
  exact ⟨ok_of_toOption (by decide +kernel), by decide +kernel, ok_of_toOption (by decide +kernel),
    by decide +kernel, .startGraph rfl (by decide +kernel), by decide +kernel⟩

end Program

end Questline
