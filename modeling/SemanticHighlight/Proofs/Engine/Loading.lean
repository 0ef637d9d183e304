import SemanticHighlight.Engine.Host
import SemanticHighlight.Proofs.Checked
import SemanticHighlight.Proofs.Registry.Consistency

/-!
# What a load comes to

Two things are asked of a platform. What a package or a library comes to is not changed by opening or
importing others (`Steady`). And a library that was opened stays loaded in its process, whatever becomes
of its file (`KeepsLibraries`): this is how `dlopen` has it. On a steady platform a load leaves what loads
come to as it is (`alike_loaded`). If the platform keeps libraries as well, it makes no difference whether
a machine has kept the libraries it opened or asks for them again (`Kept.alike_renewed`).
-/

namespace SemanticHighlight

variable {Packages Process Library Grammar Query : Type}

/-- The same machine, as a program finds it that has kept nothing yet. -/
def Machine.renewed (machine : Machine Packages Process Library) : Machine Packages Process Library :=
  { machine with libraries := [], loads := [] }

namespace Platform

variable {platform : Platform Packages Process Library Grammar Query}
  {machine a b : Machine Packages Process Library}

/-! ## Platforms -/

/-- The process once a library was opened or a package was imported. -/
inductive Grows (platform : Platform Packages Process Library Grammar Query) (files : FileTree)
    (packages : Packages) (process : Process) : Process → Prop
  | opening (path : Text) :
      Grows platform files packages process ((platform.openLibrary files path).run process).2
  | importing (package function : Text) :
      Grows platform files packages process
        ((platform.importGrammar packages package function).run process).2

structure Steady (platform : Platform Packages Process Library Grammar Query) : Prop where
  opening : ∀ files packages process process', platform.Grows files packages process process' →
    ∀ path, ((platform.openLibrary files path).run process').1 =
      ((platform.openLibrary files path).run process).1
  importing : ∀ files packages process process', platform.Grows files packages process process' →
    ∀ package function, ((platform.importGrammar packages package function).run process').1 =
      ((platform.importGrammar packages package function).run process).1

/-- Whatever the files are, opening the path gives this library. -/
def Holds (platform : Platform Packages Process Library Grammar Query) (process : Process)
    (path : Text) (library : Library) : Prop :=
  ∀ files, ((platform.openLibrary files path).run process).1 = .ok library

structure KeepsLibraries (platform : Platform Packages Process Library Grammar Query) : Prop where
  opened : ∀ files path process library,
    ((platform.openLibrary files path).run process).1 = .ok library →
      platform.Holds ((platform.openLibrary files path).run process).2 path library
  kept : ∀ files packages process process', platform.Grows files packages process process' →
    ∀ path library, platform.Holds process path library → platform.Holds process' path library

/-! ## Loads -/

/-- The library of a path: the one that is kept, or else what opening it gives. -/
def libraryOf (platform : Platform Packages Process Library Grammar Query)
    (machine : Machine Packages Process Library) (path : Path) : Except (Fault Text) Library :=
  match machine.libraries.lookup path.toText with
  | some library => .ok library
  | none => ((platform.openLibrary machine.files path.toText).run machine.process).1

/-- The grammar that a load of an entry finds. -/
def grammar (platform : Platform Packages Process Library Grammar Query)
    (machine : Machine Packages Process Library) (config : LanguageConfig) :
    Except LoadError Grammar :=
  match config.package? with
  | some reference =>
    ((platform.importGrammar machine.packages (reference.cut ':').1
      (LanguageConfig.packageFunction reference)).run machine.process).1.mapError
        (Fault.load config.lang (.package reference))
  | none =>
    match config.library machine.files with
    | .error e => .error e
    | .ok path => platform.libraryGrammar config path (platform.libraryOf machine path)

def binding (platform : Platform Packages Process Library Grammar Query)
    (machine : Machine Packages Process Library) (config : LanguageConfig) :
    Except LoadError (Binding Grammar Query) :=
  (platform.grammar machine config).bind (platform.bindingOf machine.files config)

def loaded (platform : Platform Packages Process Library Grammar Query)
    (machine : Machine Packages Process Library) (config : LanguageConfig) :
    Machine Packages Process Library := ((platform.loadGrammar config).run machine).2

inductive Touched (platform : Platform Packages Process Library Grammar Query)
    (machine : Machine Packages Process Library) : Machine Packages Process Library → Prop
  | same : Touched platform machine machine
  | imported (package function : Text) :
      Touched platform machine { machine with
        process := ((platform.importGrammar machine.packages package function).run machine.process).2
        loads := machine.loads ++ [Provenance.package package] }
  | refused (path : Text) :
      Touched platform machine { machine with
        process := ((platform.openLibrary machine.files path).run machine.process).2 }
  | opened {path : Text} {library : Library} (hnew : machine.libraries.lookup path = none)
      (hopened : ((platform.openLibrary machine.files path).run machine.process).1 = .ok library) :
      Touched platform machine { machine with
        process := ((platform.openLibrary machine.files path).run machine.process).2
        libraries := machine.libraries ++ [(path, library)]
        loads := machine.loads ++ [Provenance.library path] }

theorem run_library (path : Path) (machine : Machine Packages Process Library) :
    ((platform.library path).run machine).1 = platform.libraryOf machine path ∧
      platform.Touched machine ((platform.library path).run machine).2 := by
  unfold library libraryOf
  simp only [StateT.run_bind, StateT.run_get, pure_bind]
  cases hlookup : machine.libraries.lookup path.toText with
  | some library => exact ⟨rfl, .same⟩
  | none =>
    have hrefused : platform.Touched machine _ := .refused path.toText
    have hopened : ∀ library, _ = Except.ok library → platform.Touched machine _ :=
      fun library hlibrary => .opened hlookup hlibrary
    dsimp only
    generalize (platform.openLibrary machine.files path.toText).run machine.process = result
      at hrefused hopened
    obtain ⟨e | library, process⟩ := result
    · exact ⟨rfl, hrefused⟩
    · exact ⟨rfl, hopened library rfl⟩

theorem run_loadGrammar (config : LanguageConfig) (machine : Machine Packages Process Library) :
    ((platform.loadGrammar config).run machine).1 = (platform.grammar machine config,
        platform.versionLog config.lang (platform.grammar machine config)) ∧
      platform.Touched machine (platform.loaded machine config) := by
  unfold loaded loadGrammar grammar
  cases config.package? with
  | some reference => exact ⟨rfl, .imported _ _⟩
  | none =>
    simp only [loadLibrary, StateT.run_bind, StateT.run_get, pure_bind]
    cases config.library machine.files with
    | error e => exact ⟨rfl, .same⟩
    | ok path =>
      have hlibrary : ((platform.library path).run machine).1 = _ ∧ _ := run_library path machine
      rcases hrun : (platform.library path).run machine with ⟨library, after⟩
      rw [hrun] at hlibrary
      obtain ⟨rfl, htouched⟩ := hlibrary
      simp only [StateT.run_bind, hrun, StateT.run_pure]
      exact ⟨rfl, htouched⟩

theorem Touched.files (h : platform.Touched machine a) : a.files = machine.files := by
  cases h <;> rfl

theorem Touched.packages (h : platform.Touched machine a) : a.packages = machine.packages := by
  cases h <;> rfl

theorem touched_loaded (machine : Machine Packages Process Library) (config : LanguageConfig) :
    platform.Touched machine (platform.loaded machine config) := (run_loadGrammar config machine).2

theorem run_loadLanguage (config : LanguageConfig) (machine : Machine Packages Process Library) :
    (platform.loadLanguage config).run machine =
      ((platform.binding machine config,
        platform.versionLog config.lang (platform.grammar machine config)),
        platform.loaded machine config) := by
  have hrun : (platform.loadGrammar config).run machine = ((platform.grammar machine config,
      platform.versionLog config.lang (platform.grammar machine config)),
      platform.loaded machine config) := Prod.ext (run_loadGrammar config machine).1 rfl
  unfold loadLanguage
  rw [run_bind_of_run hrun]
  unfold binding
  rw [← (touched_loaded machine config).files]
  rfl

/-! ## Machines that a load cannot tell apart -/

structure Alike (platform : Platform Packages Process Library Grammar Query)
    (a b : Machine Packages Process Library) : Prop where
  files : a.files = b.files
  imports : ∀ package function,
    ((platform.importGrammar a.packages package function).run a.process).1 =
      ((platform.importGrammar b.packages package function).run b.process).1
  libraries : ∀ path, platform.libraryOf a path = platform.libraryOf b path

theorem Alike.binding_eq (h : platform.Alike a b) : platform.binding a = platform.binding b := by
  funext config
  have hgrammar : platform.grammar a config = platform.grammar b config := by
    unfold grammar
    rw [h.files]
    cases config.package? with
    | some reference => exact congrArg (Except.mapError _) (h.imports _ _)
    | none =>
      cases config.library b.files with
      | error e => rfl
      | ok path => exact congrArg (platform.libraryGrammar config path) (h.libraries path)
  rw [binding, binding, hgrammar, h.files]

/-- On a steady platform only the libraries that are kept change. -/
theorem Touched.alike (hsteady : platform.Steady) (h : platform.Touched machine a) :
    platform.Alike a machine := by
  cases h with
  | same => exact ⟨rfl, fun _ _ => rfl, fun _ => rfl⟩
  | imported package function =>
    have hgrows : platform.Grows machine.files machine.packages machine.process _ :=
      .importing package function
    refine ⟨rfl, hsteady.importing _ _ _ _ hgrows, fun path => ?_⟩
    unfold libraryOf
    rw [hsteady.opening _ _ _ _ hgrows]
  | refused path =>
    have hgrows : platform.Grows machine.files machine.packages machine.process _ := .opening path
    refine ⟨rfl, hsteady.importing _ _ _ _ hgrows, fun path => ?_⟩
    unfold libraryOf
    rw [hsteady.opening _ _ _ _ hgrows]
  | @opened key library hnew hopened =>
    have hgrows : platform.Grows machine.files machine.packages machine.process _ := .opening key
    refine ⟨rfl, hsteady.importing _ _ _ _ hgrows, fun path => ?_⟩
    unfold libraryOf
    rw [hsteady.opening _ _ _ _ hgrows, List.lookup_append]
    by_cases hkey : path.toText = key
    · rw [hkey, hnew, hopened]
      simp
    · rw [List.lookup_cons, beq_false_of_ne hkey]
      simp

theorem alike_loaded (hsteady : platform.Steady) (machine : Machine Packages Process Library)
    (config : LanguageConfig) : platform.Alike (platform.loaded machine config) machine :=
  (touched_loaded machine config).alike hsteady

/-! ## Kept libraries -/

/-- The process still has the libraries that are kept. -/
def Kept (platform : Platform Packages Process Library Grammar Query)
    (machine : Machine Packages Process Library) : Prop :=
  ∀ path library, (path, library) ∈ machine.libraries → platform.Holds machine.process path library

theorem Touched.kept (hkeeps : platform.KeepsLibraries) (h : platform.Touched machine a)
    (hkept : platform.Kept machine) : platform.Kept a := by
  cases h with
  | same => exact hkept
  | imported package function =>
    intro path library hmem
    exact hkeeps.kept machine.files machine.packages _ _ (.importing package function) _ _
      (hkept path library hmem)
  | refused key =>
    intro path library hmem
    exact hkeeps.kept machine.files machine.packages _ _ (.opening key) _ _ (hkept path library hmem)
  | opened hnew hopened =>
    intro path library hmem
    rcases List.mem_append.mp hmem with hmem | hmem
    · exact hkeeps.kept machine.files machine.packages _ _ (.opening _) _ _ (hkept path library hmem)
    · obtain ⟨rfl, rfl⟩ := Prod.mk.inj (List.mem_singleton.mp hmem)
      exact hkeeps.opened _ _ _ _ hopened

theorem kept_renewed (machine : Machine Packages Process Library) :
    platform.Kept machine.renewed := fun _ _ hmem => absurd hmem List.not_mem_nil

/-- What is kept is what asking again would give. -/
theorem Kept.alike_renewed (h : platform.Kept machine) : platform.Alike machine machine.renewed := by
  refine ⟨rfl, fun _ _ => rfl, fun path => ?_⟩
  unfold libraryOf
  cases hlookup : machine.libraries.lookup path.toText with
  | none => rfl
  | some library => exact (h _ _ (mem_of_lookup hlookup) machine.files).symm

end Platform

/-! ## The scripted platform -/

namespace Host

variable {files : FileTree} {path : Text} {process process' : List (Text × Exports)}
  {packages : List (Text × Exports)} {symbols : Exports}

/-- A process goes on with what it has opened, and opening adds what the file reads as. -/
theorem run_openLibrary (files : FileTree) (path : Text) (process : List (Text × Exports)) :
    (openLibrary files path).run process =
      match process.lookup path, readLibrary? files (.ofText path) with
      | some symbols, _ => (.ok symbols, process)
      | none, some symbols => (.ok symbols, (path, symbols) :: process)
      | none, none => (.error (.foreseen "not a grammar library"), process) := by
  unfold openLibrary
  simp only [StateT.run_bind, StateT.run_get, pure_bind]
  cases process.lookup path with
  | some symbols => rfl
  | none => cases readLibrary? files (.ofText path) <;> rfl

theorem grows_cases (h : platform.Grows files packages process process') :
    process' = process ∨ ∃ path symbols, process.lookup path = none ∧
      readLibrary? files (.ofText path) = some symbols ∧ process' = (path, symbols) :: process := by
  cases h with
  | importing package function => exact Or.inl rfl
  | opening path =>
    show ((openLibrary files path).run process).2 = process ∨ ∃ p symbols, _ ∧ _ ∧
      ((openLibrary files path).run process).2 = (p, symbols) :: process
    rw [run_openLibrary]
    cases hlookup : process.lookup path with
    | some symbols => exact Or.inl rfl
    | none =>
      cases hread : readLibrary? files (.ofText path) with
      | none => exact Or.inl rfl
      | some symbols => exact Or.inr ⟨path, symbols, hlookup, hread, rfl⟩

theorem run_openLibrary_cons {other : Text} (hother : path ≠ other) :
    ((openLibrary files path).run ((other, symbols) :: process)).1 =
      ((openLibrary files path).run process).1 := by
  rw [run_openLibrary, run_openLibrary, List.lookup_cons, beq_false_of_ne hother]
  dsimp only
  cases process.lookup path with
  | some symbols => rfl
  | none => cases readLibrary? files (.ofText path) <;> rfl

theorem run_openLibrary_self :
    ((openLibrary files path).run ((path, symbols) :: process)).1 = .ok symbols := by
  rw [run_openLibrary, List.lookup_cons, beq_self_eq_true]

theorem steady_platform : platform.Steady where
  importing _ _ _ _ _ _ _ := rfl
  opening files packages process process' hgrows path := by
    rcases grows_cases hgrows with rfl | ⟨other, symbols, hnew, hread, rfl⟩
    · rfl
    · by_cases hother : path = other
      · subst hother
        refine run_openLibrary_self.trans (Eq.symm ?_)
        show ((openLibrary files path).run process).1 = .ok symbols
        rw [run_openLibrary, hnew, hread]
      · exact run_openLibrary_cons hother

theorem keepsLibraries_platform : platform.KeepsLibraries where
  opened files path process symbols hopened files' := by
    have hgrown : ((openLibrary files path).run process).2.lookup path = some symbols := by
      change ((openLibrary files path).run process).1 = .ok symbols at hopened
      rw [run_openLibrary] at hopened ⊢
      cases hlookup : process.lookup path with
      | some kept =>
        rw [hlookup] at hopened
        exact hlookup.trans (congrArg some (Except.ok.inj hopened))
      | none =>
        rw [hlookup] at hopened
        cases hread : readLibrary? files (.ofText path) with
        | none =>
          rw [hread] at hopened
          cases hopened
        | some read =>
          rw [hread] at hopened
          cases hopened
          rw [List.lookup_cons, beq_self_eq_true]
    show ((openLibrary files' path).run ((openLibrary files path).run process).2).1 = .ok symbols
    rw [run_openLibrary files', hgrown]
  kept files packages process process' hgrows path symbols hholds files' := by
    rcases grows_cases hgrows with rfl | ⟨other, read, hnew, hread, rfl⟩
    · exact hholds files'
    · by_cases hother : path = other
      · subst hother
        have hsame : ((openLibrary files path).run process).1 = .ok symbols := hholds files
        rw [run_openLibrary, hnew, hread] at hsame
        cases hsame
        exact run_openLibrary_self
      · exact (run_openLibrary_cons hother).trans (hholds files')

/-! ### Files with literal patterns -/

def rootFiles (files : List (Text × Text)) : FileTree :=
  files.foldl (fun tree (name, content) => tree.insert [name] content.encodeUtf8) (.empty [])

/-- A path that no file can have. -/
def zeroPath : Text := [47, 0]

/-- A pattern that marks every run of a character as a region of a language. -/
def marking (character lang : Text) : Text :=
  "\x7b\"run\":\"" ++ character ++ "\",\"captures\":[[0,\"injection.content\"]]," ++
    "\"set\":\x7b\"injection.language\":\"" ++ lang ++ "\"\x7d\x7d"

/-- Marks `b` for one language and `a` for another. -/
def markingQuery (first second : Text) : Text :=
  "[" ++ marking "b" first ++ "," ++ marking "a" second ++ "]"

end Host

end SemanticHighlight
