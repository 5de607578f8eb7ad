import HackToolchain.Proofs.Sessions
import Mathlib.Data.List.Sort

/-! # Loaded units

The units of a directory are its files of stack code in the order of their names (`UnitsIn`), as far
as their paths are short enough to be followed. Each is loaded from its own file, and is named for
it, so no two units of a directory have one name: a command at fault is shown in the unit that it is
in.
-/

namespace HackToolchain

/-! ## Names of units -/

namespace Path

/-- A name in a directory is the name of the file that its path leads to. -/
theorem fileName?_join {directory name : String} (named : directory ≠ "")
    (valid : FileTree.IsFileName name) : fileName? (join directory name) = some name.toList := by
  have ends : ∃ before, pieces (join directory name) = before ++ [name.toList] := by
    rcases pieces_join named valid.slash with joined | ⟨before, -, joined⟩
    · exact ⟨_, joined⟩
    · exact ⟨before, joined⟩
  obtain ⟨before, joined⟩ := ends
  have naming : namingPieces (join directory name) = name.toList :: before.reverse := by
    rw [namingPieces, joined, List.reverse_append, List.reverse_singleton, List.singleton_append,
      List.dropWhile_cons_of_neg valid.not_idle]
  rw [fileName?, naming]
  exact if_neg valid.not_parent

/-- A name with an extension is its stem, a dot, and the extension. -/
theorem eq_append_of_splitName {name stem extension : Text}
    (cut : splitName name = (stem, some extension)) : name = stem ++ '.' :: extension := by
  have parts := List.takeWhile_append_dropWhile (p := (· != '.')) (l := name.reverse)
  unfold splitName at cut
  split at cut
  · cases cut
  · cases cut
  · rename_i dot before _ rest
    have last : dot = '.' := by
      have refused := List.head?_dropWhile_not (p := (· != '.')) name.reverse
      rw [rest] at refused
      simpa using refused
    cases cut
    rw [rest, last] at parts
    calc name = name.reverse.reverse := (List.reverse_reverse name).symm
      _ = (name.reverse.takeWhile (· != '.') ++ '.' :: before).reverse := by rw [parts]
      _ = before.reverse ++ '.' :: (name.reverse.takeWhile (· != '.')).reverse := by simp

/-- A name with an extension is a stem, a dot and the extension. -/
theorem eq_append_of_extension? {name extension : String}
    (cut : extension? name = some extension) :
    name = String.ofList (splitName name.toList).1 ++ "." ++ extension := by
  unfold extension? at cut
  cases parts : splitName name.toList with
  | mk stem found =>
    rw [parts] at cut
    cases found with
    | none => cases cut
    | some characters =>
      cases cut
      apply String.ext
      rw [eq_append_of_splitName parts]
      simp

end Path

/-- The names of the units in the entries of a directory: those of its files of stack code, in order
and without repetitions, whose paths are shorter than 4096 bytes. -/
structure UnitsIn (input : String) (entries : List (String × FileTree)) (names : List String) :
    Prop where
  sorted : names.Pairwise (· < ·)
  mem_iff : ∀ name, name ∈ names ↔ ∃ contents, (name, .file contents) ∈ entries ∧
    Path.extension? name = some "vm" ∧ (Path.join input name).utf8ByteSize < 4096

/-- Only one list names the units of a directory. -/
theorem UnitsIn.unique {input : String} {entries : List (String × FileTree)}
    {names others : List String} (first : UnitsIn input entries names)
    (second : UnitsIn input entries others) : names = others :=
  first.sorted.eq_of_mem_iff second.sorted fun name =>
    (first.mem_iff name).trans (second.mem_iff name).symm

/-- A unit is what the file at the end of a path gives: it is named for the file, by a symbol, and
has its text. -/
structure LoadedUnit.IsFrom (world : World) (path : String) (unit : LoadedUnit) : Prop where
  located : unit.path = path
  named : unit.source.name = (Path.stem? path).getD ""
  symbol : isSymbol unit.source.name
  text : world.read path = .ok unit.source.text.toUTF8

/-- A unit is what an entry of a directory gives. -/
structure LoadedUnit.IsEntry (input : String) (entries : List (String × FileTree)) (name : String)
    (unit : LoadedUnit) : Prop where
  located : unit.path = Path.join input name
  named : name = unit.source.name ++ ".vm"
  symbol : isSymbol unit.source.name
  text : (name, .file unit.source.text.toUTF8) ∈ entries

namespace Session

/-! ## Loading -/

/-- A unit is loaded just when it is from the file at the path. -/
theorem loadUnit_ok_iff {world : World} {path : String} {unit : LoadedUnit} :
    (world.outcome (loadUnit World.host path)).1 = .ok unit ↔ unit.IsFrom world path := by
  rw [loadUnit, outcome_bind_of_ok (outcome_lift _ world), run_load]
  constructor
  · intro loaded
    split_ifs at loaded with symbol
    · cases contents : world.read path with
      | error error =>
        rw [contents] at loaded
        cases error <;> cases loaded
      | ok bytes =>
        rw [contents, Source.ofBytes, String.fromUTF8?] at loaded
        by_cases valid : bytes.IsValidUTF8
        · rw [dif_pos valid] at loaded
          cases loaded
          exact ⟨rfl, rfl, symbol, contents⟩
        · rw [dif_neg valid] at loaded
          cases loaded
    · cases loaded
  · rintro ⟨rfl, named, symbol, text⟩
    have valid : unit.source.text.toUTF8.IsValidUTF8 := unit.source.text.isValidUTF8
    rw [← named, if_pos symbol, text, Source.ofBytes, String.fromUTF8?, dif_pos valid]
    rfl

/-- Units are loaded from the paths of an input in order. -/
theorem loadUnits_ok_iff {world : World} {input : String} {units : List LoadedUnit} :
    (world.outcome (loadUnits World.host input)).1 = .ok units ↔
      ∃ paths, (world.outcome (unitPaths World.host input)).1 = .ok paths ∧
        List.Forall₂ (LoadedUnit.IsFrom world) paths units := by
  simp only [loadUnits, (quiet_unitPaths input).bind_ok_iff, Keeps.mapM_ok_iff quiet_loadUnit,
    loadUnit_ok_iff]

/-- The text of a unit is that of the file that it is loaded from. -/
theorem read_of_loadUnits {world : World} {input : String} {units : List LoadedUnit}
    (loaded : (world.outcome (loadUnits World.host input)).1 = .ok units) :
    ∀ unit ∈ units, world.read unit.path = .ok unit.source.text.toUTF8 := by
  obtain ⟨paths, -, read⟩ := loadUnits_ok_iff.mp loaded
  clear loaded
  induction read with
  | nil => simp
  | cons first _ hypothesis =>
    rw [List.forall_mem_cons, first.located]
    exact ⟨first.text, hypothesis⟩

/-! ## Directories -/

/-- Relations that agree on the values of a list agree on the list. -/
theorem forall₂_congr_of_mem {α β : Type} {first second : α → β → Prop} {values : List α}
    {results : List β}
    (same : ∀ value ∈ values, ∀ result, first value result ↔ second value result) :
    List.Forall₂ first values results ↔ List.Forall₂ second values results := by
  induction values generalizing results with
  | nil => rw [List.forall₂_nil_left_iff, List.forall₂_nil_left_iff]
  | cons value rest hypothesis =>
    rw [List.forall_mem_cons] at same
    simp only [List.forall₂_cons_left_iff, same.1, hypothesis same.2]

section

variable {world : World} {input : String} {entries : List (String × FileTree)}
  (found : world.access input = .ok (.directory entries))

include found

/-- A directory without units fails. -/
theorem loadUnits_of_no_units (none : unitNames world input (entries.map Prod.fst) = []) :
    (world.outcome (loadUnits World.host input)).1 = .error (.noUnits input) := by
  have listed := outcome_unitPaths_of_directory found
  rw [if_pos none] at listed
  rw [loadUnits, outcome_bind_of_error listed]

variable (formed : world.tree.WellFormed)

include formed

/-- The entries of a directory have different names. -/
theorem names_of_directory : (entries.map Prod.fst).Nodup ∧
    ∀ name ∈ entries.map Prod.fst, FileTree.IsFileName name := by
  obtain ⟨place, -, here⟩ := FileTree.access_ok_iff.mp found
  exact formed place entries here

/-- The path of an entry leads to the entry just when it is not too long. -/
theorem access_entry_iff {name : String} (listed : name ∈ entries.map Prod.fst)
    {tree : FileTree} : world.access (Path.join input name) = .ok tree ↔
      (name, tree) ∈ entries ∧ (Path.join input name).utf8ByteSize < 4096 := by
  obtain ⟨distinct, valid⟩ := names_of_directory found formed
  rw [World.access, FileTree.access_join_ok_iff found (valid name listed),
    FileTree.lookup_eq_some_iff_mem distinct]

/-- The names of the units are those of the files of stack code, in order. -/
theorem unitsIn_unitNames : UnitsIn input entries
    (unitNames world input (entries.map Prod.fst)) := by
  obtain ⟨distinct, -⟩ := names_of_directory found formed
  constructor
  · have different : (unitNames world input (entries.map Prod.fst)).Nodup :=
      (perm_unitNames world input _).nodup_iff.mpr (distinct.filter _)
    refine ((sorted_unitNames world input (entries.map Prod.fst)).and different).imp ?_
    rintro first second ⟨below, apart⟩
    by_contra above
    exact apart (String.le_antisymm below (String.not_lt.mp above))
  · intro name
    rw [(perm_unitNames world input _).mem_iff, List.mem_filter, isUnitIn, Bool.and_eq_true,
      decide_eq_true_eq, World.isFile_iff]
    constructor
    · rintro ⟨listed, extension, contents, file⟩
      obtain ⟨inside, short⟩ := (access_entry_iff found formed listed).mp file
      exact ⟨contents, inside, extension, short⟩
    · rintro ⟨contents, inside, extension, short⟩
      have listed : name ∈ entries.map Prod.fst := List.mem_map.mpr ⟨_, inside, rfl⟩
      exact ⟨listed, extension, contents,
        (access_entry_iff found formed listed).mpr ⟨inside, short⟩⟩

/-- A file of stack code in a directory gives the unit that is named for it and has its text. -/
theorem isFrom_join_iff {names : List String} (units : UnitsIn input entries names)
    {name : String} (inside : name ∈ names) {unit : LoadedUnit} :
    unit.IsFrom world (Path.join input name) ↔ unit.IsEntry input entries name := by
  obtain ⟨contents, entry, extension, short⟩ := (units.mem_iff name).mp inside
  have listed : name ∈ entries.map Prod.fst := List.mem_map.mpr ⟨_, entry, rfl⟩
  have named : unit.source.name = (Path.stem? (Path.join input name)).getD "" ↔
      name = unit.source.name ++ ".vm" := by
    obtain ⟨place, resolved, -⟩ := FileTree.access_ok_iff.mp found
    have fileName := Path.fileName?_join (FileTree.resolve_ok_iff.mp resolved).2.1
      ((names_of_directory found formed).2 name listed)
    have whole : name = String.ofList (Path.splitName name.toList).1 ++ ".vm" :=
      (Path.eq_append_of_extension? extension).trans String.append_assoc
    rw [Path.stem?, fileName, Option.map_some, Option.getD_some]
    conv => rhs; lhs; rw [whole]
    rw [String.append_left_inj, eq_comm]
  have text : world.read (Path.join input name) = .ok unit.source.text.toUTF8 ↔
      (name, .file unit.source.text.toUTF8) ∈ entries := by
    rw [World.read_ok_iff, access_entry_iff found formed listed]
    exact and_iff_left short
  constructor
  · intro loaded
    exact ⟨loaded.located, named.mp loaded.named, loaded.symbol, text.mp loaded.text⟩
  · intro loaded
    exact ⟨loaded.located, named.mpr loaded.named, loaded.symbol, text.mpr loaded.text⟩

/-- The units of a directory are loaded if each of its files of stack code gives one. -/
theorem loadUnits_ok_iff_of_directory {units : List LoadedUnit} :
    (world.outcome (loadUnits World.host input)).1 = .ok units ↔ units ≠ [] ∧
      List.Forall₂ (LoadedUnit.IsEntry input entries)
        (unitNames world input (entries.map Prod.fst)) units := by
  have each : List.Forall₂ (LoadedUnit.IsFrom world)
      ((unitNames world input (entries.map Prod.fst)).map (Path.join input)) units ↔
      List.Forall₂ (LoadedUnit.IsEntry input entries)
        (unitNames world input (entries.map Prod.fst)) units := by
    rw [List.forall₂_map_left_iff]
    refine forall₂_congr_of_mem fun name inside unit => ?_
    exact isFrom_join_iff found formed (unitsIn_unitNames found formed) inside
  rw [loadUnits_ok_iff, outcome_unitPaths_of_directory found]
  by_cases none : unitNames world input (entries.map Prod.fst) = []
  · rw [if_pos none, none, List.forall₂_nil_left_iff]
    simp
  · rw [if_neg none]
    simp only [Except.ok.injEq, exists_eq_left', each]
    constructor
    · intro loaded
      refine ⟨?_, loaded⟩
      rintro rfl
      exact none (List.forall₂_nil_right_iff.mp loaded)
    · exact And.right

end

/-- No two units of an input have one name. -/
theorem nodup_sourceNames {world : World} {input : String} {units : List LoadedUnit}
    (formed : world.tree.WellFormed)
    (loaded : (world.outcome (loadUnits World.host input)).1 = .ok units) :
    (units.map fun unit => unit.source.name).Nodup := by
  by_cases inside : ∃ entries, world.access input = .ok (.directory entries)
  · obtain ⟨entries, found⟩ := inside
    -- The names of the files are those of the units with one extension, and differ.
    have named : unitNames world input (entries.map Prod.fst) =
        (units.map fun unit => unit.source.name).map (· ++ ".vm") := by
      rw [List.map_map, ← List.forall₂_eq_eq_eq, List.forall₂_map_right_iff]
      exact ((loadUnits_ok_iff_of_directory found formed).mp loaded).2.imp
        fun _ _ each => each.named
    have distinct := (unitsIn_unitNames found formed).sorted.imp fun {_ _} below =>
      String.ne_of_lt below
    rw [named] at distinct
    exact List.Nodup.of_map _ distinct
  · have outside : world.isDirectory input = false :=
      World.isDirectory_eq_false fun entries found => inside ⟨entries, found⟩
    obtain ⟨paths, listed, read⟩ := loadUnits_ok_iff.mp loaded
    rw [outcome_unitPaths_of_not_directory outside] at listed
    cases listed
    cases read with
    | cons _ rest =>
      cases rest
      exact List.nodup_singleton _

/-- Among units with different names, each is found under its own. -/
theorem find?_source_name {units : List LoadedUnit}
    (distinct : (units.map fun unit => unit.source.name).Nodup) {unit : LoadedUnit}
    (inside : unit ∈ units) :
    units.find? (fun other => other.source.name = unit.source.name) = some unit := by
  cases found : units.find? fun other => other.source.name = unit.source.name with
  | none => simpa using List.find?_eq_none.mp found unit inside
  | some other =>
    have same : other.source.name = unit.source.name := by
      simpa using List.find?_some found
    rw [List.inj_on_of_nodup_map distinct (List.mem_of_find?_eq_some found) inside same]

/-- A command at fault is in one of the units that are compiled: the one with the name that the
failure carries. -/
theorem exists_faulty_unit {options : EmissionOptions} {units : List LoadedUnit} {name : String}
    {position : Position} {fault : CommandFault}
    (failed : (compile options (units.map LoadedUnit.source)).result =
      .error (.command name position fault)) :
    ∃ unit ∈ units, unit.source.name = name ∧ unit.source.fault? = some fault ∧
      position = Text.position fault.span.start unit.source.text.toList := by
  rw [compile_error_iff, List.findSome?_map] at failed
  obtain ⟨unit, inside, cause⟩ := List.exists_of_findSome?_eq_some failed
  simp only [Function.comp_apply, Source.failure?, Option.map_eq_some_iff] at cause
  obtain ⟨found, first, same⟩ := cause
  cases same
  exact ⟨unit, inside, rfl, first, rfl⟩

end Session

end HackToolchain
