import Signatures.CommandLine.Run
import Signatures.Proofs.Catalog.Reachable
import Signatures.Proofs.Signature.Parsing

/-!
# Runs over several signatures

A command on several signatures leaves what it leaves on each of them alone, in order: the two texts of the run
are those of the single runs, one after the other, and it fails if one of them does. So a signature that fails
does not change what is printed for the others.
-/

namespace Signatures.CommandLine

inductive BatchCommand where
  | parse (json : Bool)
  | short
  | resolve (json : Bool)

namespace BatchCommand

def on : BatchCommand → List String → Command
  | parse json, signatures => .parse signatures json
  | short, signatures => .short signatures
  | resolve json, signatures => .resolve signatures json

def result (catalog : Catalog) : BatchCommand → String → Except Diagnostic String
  | parse json => parseOne catalog json
  | short => shortOne catalog
  | resolve json => resolveOne catalog json

theorem run_on (command : BatchCommand) {sources : Sources} {path : Option String} {catalog : Catalog}
    (hload : loadCatalog sources path = .ok catalog) (signatures : List String) :
    run sources ⟨path, command.on signatures⟩ = runEach (command.result catalog) signatures := by
  cases command <;> simp only [on, run, withCatalog, hload, result]

def name : BatchCommand → String
  | parse _ => "parse"
  | short => "short"
  | resolve _ => "resolve"

def json : BatchCommand → Bool
  | parse json | resolve json => json
  | short => false

/-- The arguments that ask for the command with a catalog file, without the signatures. -/
def arguments (command : BatchCommand) (path : Option String) : List String :=
  command.name :: ((if command.json then ["--json"] else []) ++ (path.map ("--catalog=" ++ ·)).toList)

end BatchCommand

section Arguments

/-- Nothing that starts with a minus sign and goes on stands before an argument that is no option. -/
theorem isPrefixOf_eq_false {argument : String} (h : isOption argument = false) (c : Char) (cs : List Char) :
    ('-' :: c :: cs).isPrefixOf argument.toList = false := by
  rw [isOption] at h
  split at h
  · next heq =>
    rw [heq]
    rfl
  · cases h
  · next hne =>
    cases htext : argument.toList with
    | nil => rfl
    | cons d ds =>
      have hd : '-' ≠ d := by
        rintro rfl
        exact hne ds htext
      rw [List.isPrefixOf_cons_cons, beq_false_of_ne hd, Bool.false_and]

theorem isHelp_eq_false {argument : String} (h : isOption argument = false) : isHelp argument = false := by
  have hne : argument ≠ "--help" := by
    rintro rfl
    cases h
  rw [isHelp, Bool.or_eq_false_iff, beq_eq_false_iff_ne]
  exact ⟨hne, isPrefixOf_eq_false h 'h' []⟩

theorem catalogValue?_eq_none {argument : String} (h : isOption argument = false) :
    catalogValue? argument = none := by
  have hnone : "--catalog=".toList.isPrefixOf argument.toList = false := isPrefixOf_eq_false h '-' "catalog=".toList
  rw [catalogValue?]
  simp only [hnone, Bool.false_eq_true, if_false]

theorem catalogValue?_append (path : String) : catalogValue? ("--catalog=" ++ path) = some path := by
  have hprefix : "--catalog=".toList.isPrefixOf ("--catalog=" ++ path).toList = true := by
    rw [List.isPrefixOf_iff_prefix, String.toList_append]
    exact List.prefix_append _ _
  simp only [catalogValue?]
  rw [if_pos hprefix, String.toList_append, List.drop_left, String.ofList_toList]

namespace Draft

variable {draft : Draft}

theorem addValue_eq (hname : draft.name ≠ .check) (value : String) :
    draft.addValue value = .ok { draft with values := draft.values ++ [value] } := by
  rw [addValue]
  split
  · next heq _ => exact absurd heq hname
  · rfl

theorem read_value (hname : draft.name ≠ .check) {value : String} (h : isOption value = false)
    (rest : List String) :
    draft.read (value :: rest) = { draft with values := draft.values ++ [value] }.read rest := by
  have hend : value ≠ "--" := by
    rintro rfl
    cases h
  have hcatalog : value ≠ "--catalog" := by
    rintro rfl
    cases h
  have hjson : value ≠ "--json" := by
    rintro rfl
    cases h
  rw [read.eq_5 _ _ _ (absurd · hend) (fun h _ => hcatalog h) (fun _ _ h _ => hcatalog h),
    isHelp_eq_false h, catalogValue?_eq_none h, h, addValue_eq hname]
  simp [hjson]

theorem read_json (hname : draft.name.takesJson = true) (hjson : draft.json = false) (rest : List String) :
    draft.read ("--json" :: rest) = { draft with json := true }.read rest := by
  rw [read.eq_5 _ _ _ (by simp) (by simp) (by simp)]
  simp [hname, hjson, isHelp]

theorem read_catalog (hcatalog : draft.catalog = none) (path : String) (rest : List String) :
    draft.read (("--catalog=" ++ path) :: rest) = { draft with catalog := some path }.read rest := by
  have htext : ("--catalog=" ++ path).toList = '-' :: '-' :: 'c' :: ("atalog=".toList ++ path.toList) := by
    rw [String.toList_append]
    rfl
  have hne (argument : String) (h : argument.toList ≠ '-' :: '-' :: 'c' :: ("atalog=".toList ++ path.toList)) :
      "--catalog=" ++ path ≠ argument := fun heq => h (heq ▸ htext)
  have hoption : "--catalog=" ++ path ≠ "--catalog" := hne _ (by simp)
  have hhelp : isHelp ("--catalog=" ++ path) = false := by
    rw [isHelp, Bool.or_eq_false_iff, beq_eq_false_iff_ne, htext]
    exact ⟨hne _ (by simp), rfl⟩
  have hjson : "--catalog=" ++ path ≠ "--json" := hne _ (by simp)
  have hadd : draft.addCatalog path = .ok { draft with catalog := some path } := by
    simp [addCatalog, hcatalog]
  rw [read.eq_5 _ _ _ (fun h => hne "--" (by simp) h) (fun h _ => hoption h) (fun _ _ h _ => hoption h),
    hhelp, catalogValue?_append]
  simp [hjson, hadd]

theorem read_values (hname : draft.name ≠ .check) {values : List String}
    (h : ∀ value ∈ values, isOption value = false) :
    draft.read values = { draft with values := draft.values ++ values }.finish := by
  induction values generalizing draft with
  | nil => rw [read, List.append_nil]
  | cons value values ih =>
    rw [List.forall_mem_cons] at h
    have htail := @ih { draft with values := draft.values ++ [value] } hname h.2
    rw [read_value hname h.1, htail, List.append_assoc, List.singleton_append]

theorem read_end (hname : draft.name ≠ .check) (values : List String) :
    draft.read ("--" :: values) = { draft with values := draft.values ++ values }.finish := by
  have hadd : draft.addValues values = .ok { draft with values := draft.values ++ values } := by
    induction values generalizing draft with
    | nil => rw [List.append_nil]; rfl
    | cons value values ih =>
      have htail := @ih { draft with values := draft.values ++ [value] } hname
      rw [List.append_assoc, List.singleton_append] at htail
      rw [addValues, List.foldlM_cons, addValue_eq hname]
      exact htail
  rw [read, hadd]
  rfl

end Draft

namespace BatchCommand

def commandName : BatchCommand → CommandName
  | parse _ => .parse
  | short => .short
  | resolve _ => .resolve

theorem ofArgs_name (command : BatchCommand) (rest : List String) :
    Request.ofArgs (command.name :: rest) = Draft.read ⟨command.commandName, none, none, false, []⟩ rest := by
  cases command <;> rw [name, commandName] <;> rfl

theorem ofArgs_arguments (command : BatchCommand) (path : Option String) (rest : List String) :
    Request.ofArgs (command.arguments path ++ rest) =
      Draft.read ⟨command.commandName, none, path, command.json, []⟩ rest := by
  have hcatalog (json : Bool) : Draft.read ⟨command.commandName, none, none, json, []⟩
      ((path.map ("--catalog=" ++ ·)).toList ++ rest) =
        Draft.read ⟨command.commandName, none, path, json, []⟩ rest := by
    cases path with
    | none => rfl
    | some path => exact Draft.read_catalog rfl path rest
  rw [arguments, List.cons_append, ofArgs_name, List.append_assoc, ← hcatalog]
  cases hjson : command.json with
  | false => rfl
  | true =>
    have htakes : command.commandName.takesJson = true := by
      cases command with
      | parse | resolve => rfl
      | short => cases hjson
    exact Draft.read_json htakes rfl _

theorem finish_eq (command : BatchCommand) (path : Option String) {signatures : List String}
    (hne : signatures ≠ []) :
    Draft.finish ⟨command.commandName, none, path, command.json, signatures⟩ =
      .ok (.run ⟨path, command.on signatures⟩) := by
  cases signatures with
  | nil => exact absurd rfl hne
  | cons signature signatures => cases command <;> cases path <;> rfl

/-- Signatures are taken as they are behind `--`, and without it where none of them is an option. -/
theorem ofArgs_signatures (command : BatchCommand) (path : Option String) {signatures : List String}
    (hne : signatures ≠ []) :
    Request.ofArgs (command.arguments path ++ "--" :: signatures) = .ok (.run ⟨path, command.on signatures⟩) ∧
      ((∀ signature ∈ signatures, isOption signature = false) →
        Request.ofArgs (command.arguments path ++ signatures) = .ok (.run ⟨path, command.on signatures⟩)) := by
  have hname : command.commandName ≠ .check := by cases command <;> nofun
  constructor
  · rw [ofArgs_arguments, Draft.read_end hname]
    exact command.finish_eq path hne
  · intro h
    rw [ofArgs_arguments, Draft.read_values hname h]
    exact command.finish_eq path hne

end BatchCommand

end Arguments

namespace Batch

variable (result : String → Except Diagnostic String)

/-- A signature adds to a run what it leaves alone. -/
theorem step_eq (batch : Batch) (source : String) :
    batch.step result source = ⟨batch.failed || (start.step result source).failed,
      batch.stdout ++ (start.step result source).stdout, batch.stderr ++ (start.step result source).stderr⟩ := by
  cases h : result source <;> simp [step, start, h]

theorem foldl_step (batch : Batch) (sources : List String) :
    sources.foldl (step result) batch =
      ⟨batch.failed || sources.any fun source => (start.step result source).failed,
        batch.stdout ++ String.join (sources.map fun source => (start.step result source).stdout),
        batch.stderr ++ String.join (sources.map fun source => (start.step result source).stderr)⟩ := by
  induction sources generalizing batch with
  | nil => simp
  | cons source sources ih =>
    rw [List.foldl_cons, ih, step_eq]
    simp [Bool.or_assoc, String.append_assoc]

end Batch

theorem format_ne_empty (d : Diagnostic) (source : String) : d.format source ≠ "" := by
  intro h
  have hlength := congrArg String.length h
  simp [Diagnostic.format] at hlength

section RunEach

variable (result : String → Except Diagnostic String)

theorem runEach_singleton (source : String) :
    (∃ line, result source = .ok line ∧ runEach result [source] = ⟨0, line ++ "\n", ""⟩) ∨
      ∃ d, result source = .error d ∧ runEach result [source] = ⟨1, "", d.format source⟩ := by
  cases h : result source with
  | ok line => exact .inl ⟨line, rfl, by simp [runEach, Batch.step, Batch.start, Batch.outcome, h]⟩
  | error d => exact .inr ⟨d, rfl, by simp [runEach, Batch.step, Batch.start, Batch.outcome, h]⟩

/-- The texts of a run are those of the signatures alone, in order. -/
theorem texts_runEach (sources : List String) :
    (runEach result sources).stdout = String.join (sources.map fun source => (runEach result [source]).stdout) ∧
      (runEach result sources).stderr =
        String.join (sources.map fun source => (runEach result [source]).stderr) := by
  rw [runEach, Batch.foldl_step]
  exact ⟨String.empty_append, String.empty_append⟩

/-- A run fails where a signature alone does, and succeeds otherwise. -/
theorem code_runEach (sources : List String) :
    ((runEach result sources).code = 1 ↔ ∃ source ∈ sources, (runEach result [source]).code = 1) ∧
      ((runEach result sources).code = 0 ∨ (runEach result sources).code = 1) := by
  have hfailed (batch : Batch) : (batch.outcome.code = 1 ↔ batch.failed = true) ∧
      (batch.outcome.code = 0 ∨ batch.outcome.code = 1) := by
    rw [Batch.outcome]
    cases batch.failed <;> simp
  have hone (source : String) :
      (runEach result [source]).code = 1 ↔ (Batch.start.step result source).failed = true :=
    (hfailed (Batch.start.step result source)).1
  simp only [hone]
  refine ⟨?_, (hfailed _).2⟩
  rw [runEach, (hfailed _).1, Batch.foldl_step, Batch.start, Bool.false_or, List.any_eq_true]

end RunEach

/-- A run of a command on signatures is the runs on each of them alone, in order. The signatures can be given
behind `--`, whatever they are. The two texts of the run are those of the single runs, one after the other; its
code is one if that of a single run is one, and zero otherwise. Each signature writes to one of the two texts. -/
theorem batch_concatenates (command : BatchCommand) (sources : Sources) (path : Option String) (catalog : Catalog)
    (hload : loadCatalog sources path = .ok catalog) (signatures : List String) :
    let all := run sources ⟨path, command.on signatures⟩
    let alone := fun signature => run sources ⟨path, command.on [signature]⟩
    (∀ given ≠ [],
      Request.ofArgs (command.arguments path ++ "--" :: given) = .ok (.run ⟨path, command.on given⟩) ∧
        ((∀ signature ∈ given, isOption signature = false) →
          Request.ofArgs (command.arguments path ++ given) = .ok (.run ⟨path, command.on given⟩))) ∧
    all.stdout = String.join (signatures.map fun signature => (alone signature).stdout) ∧
    all.stderr = String.join (signatures.map fun signature => (alone signature).stderr) ∧
    (all.code = 1 ↔ ∃ signature ∈ signatures, (alone signature).code = 1) ∧
    (all.code = 0 ∨ all.code = 1) ∧
    ∀ signature ∈ signatures,
      (alone signature).code = 0 ∧ (alone signature).stdout ≠ "" ∧ (alone signature).stderr = "" ∨
        (alone signature).code = 1 ∧ (alone signature).stdout = "" ∧ (alone signature).stderr ≠ "" := by
  intro all alone
  have hall : all = runEach (command.result catalog) signatures := command.run_on hload signatures
  have halone (signature : String) : alone signature = runEach (command.result catalog) [signature] :=
    command.run_on hload [signature]
  simp only [hall, halone]
  rcases texts_runEach (command.result catalog) signatures with ⟨hstdout, hstderr⟩
  rcases code_runEach (command.result catalog) signatures with ⟨hcode, hcodes⟩
  refine ⟨fun given hgiven => command.ofArgs_signatures path hgiven, hstdout, hstderr, hcode, hcodes, ?_⟩
  intro signature _
  rcases runEach_singleton (command.result catalog) signature with ⟨line, -, hrun⟩ | ⟨d, -, hrun⟩
  · rw [hrun]
    exact .inl ⟨rfl, by simp, rfl⟩
  · rw [hrun]
    exact .inr ⟨rfl, rfl, format_ne_empty d signature⟩

def pointsFile : Sources where
  stdin := ""
  file _ := .ok ("(types: [(name: \"point\", short_name: \"pt\", min_args: 2, max_args: Some(2), " ++
    "arg_kind: Integer)])")

/-- The short name of a point is printed between two signatures that fail. -/
theorem batch_concatenates_points :
    let short := fun signatures => run pointsFile ⟨some "types.ron", .short signatures⟩
    loadCatalog pointsFile (some "types.ron") = .ok .points ∧
      Request.ofArgs ["short", "--catalog=types.ron", "--", "list<", "point<1,2>", "-2"] =
        .ok (.run ⟨some "types.ron", .short ["list<", "point<1,2>", "-2"]⟩) ∧
      (short ["list<", "point<1,2>", "-2"]).stdout = "pt\n" ∧
      (short ["list<", "point<1,2>", "-2"]).stderr = (short ["list<"]).stderr ++ (short ["-2"]).stderr ∧
      (short ["list<", "point<1,2>", "-2"]).code = 1 := by
  intro short
  have hload : loadCatalog pointsFile (some "types.ron") = .ok .points :=
    eq_ok_of_toOption (by decide +kernel)
  rcases batch_concatenates .short pointsFile (some "types.ron") .points hload ["list<", "point<1,2>", "-2"] with
    ⟨hargs, hstdout, hstderr, hcode, -, -⟩
  have hshort (signature : String) : short [signature] = runEach (shortOne .points) [signature] :=
    BatchCommand.short.run_on hload [signature]
  have hpoint : (short ["point<1,2>"]).stdout = "pt\n" ∧ (short ["point<1,2>"]).stderr = "" := by
    rw [hshort]
    decide +kernel
  have hlist : (short ["list<"]).stdout = "" ∧ (short ["list<"]).code = 1 := by
    rw [hshort]
    decide +kernel
  have hnumber : (short ["-2"]).stdout = "" := by
    rw [hshort]
    decide +kernel
  refine ⟨hload, (hargs _ (List.cons_ne_nil _ _)).1, hstdout.trans ?_, hstderr.trans ?_, ?_⟩
  · change String.join [(short ["list<"]).stdout, (short ["point<1,2>"]).stdout, (short ["-2"]).stdout] = _
    rw [hlist.1, hpoint.1, hnumber]
    rfl
  · change String.join [(short ["list<"]).stderr, (short ["point<1,2>"]).stderr, (short ["-2"]).stderr] = _
    rw [hpoint.2]
    simp [String.join]
  · exact hcode.mpr ⟨"list<", List.mem_cons_self, hlist.2⟩

end Signatures.CommandLine
