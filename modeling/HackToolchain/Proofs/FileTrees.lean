import HackToolchain.Host
import Mathlib.Data.List.Induction

/-! # File trees and paths

A file tree is determined by what is at each place in it: nothing, a file, or a directory with names
(`nodeAt?`). Following a path looks at places only, so it leads to the same place in two trees that
differ in the order of directories (`Reordered`). Writing a file changes what is at one place, and
the names in the directory above it if the file is new (`nodeAt?_insert_of_present`,
`nodeAt?_insert_of_absent`).
-/

namespace HackToolchain

/-- What is at a place in a file tree. -/
inductive Node where
  | file (contents : ByteArray)
  /-- A directory with the names of its entries, as they are listed. -/
  | directory (names : List String)

/-- Two places hold the same, but for the order in which the names of a directory are listed. -/
inductive Node.Alike : Option Node → Option Node → Prop where
  | absent : Alike none none
  | file (contents : ByteArray) : Alike (some (.file contents)) (some (.file contents))
  | directory {names others : List String} (same : names.Perm others) :
      Alike (some (.directory names)) (some (.directory others))

namespace Path

/-- A text whose last piece is empty ends in a slash. -/
theorem getLast?_intercalate_nil {pieces : List Text} (nonempty : pieces ≠ []) :
    (['/'].intercalate (pieces ++ [[]])).getLast? = some '/' := by
  induction pieces with
  | nil => exact absurd rfl nonempty
  | cons piece rest hypothesis =>
    rw [List.cons_append, List.intercalate_cons_of_ne_nil (by simp), List.getLast?_append]
    cases rest with
    | nil => simp
    | cons next others =>
      rw [hypothesis (List.cons_ne_nil _ _)]
      rfl

/-- A path that does not end in a slash ends in a piece that is not empty. -/
theorem exists_pieces_eq {path : String} (named : path ≠ "")
    (unclosed : path.toList.getLast? ≠ some '/') :
    ∃ before last, pieces path = before ++ [last] ∧ last ≠ [] := by
  have whole : ['/'].intercalate (pieces path) = path.toList := List.intercalate_splitOn '/'
  cases found : pieces path using List.reverseRecOn with
  | nil =>
    rw [found] at whole
    exact absurd (String.ext whole.symm) named
  | append_singleton before last =>
    refine ⟨before, last, rfl, ?_⟩
    rintro rfl
    rw [found] at whole
    by_cases alone : before = []
    · rw [alone] at whole
      exact named (String.ext whole.symm)
    · rw [← whole] at unclosed
      exact unclosed (getLast?_intercalate_nil alone)

/-- A joined path has nothing but slashes between the directory and the name. -/
theorem toList_join (directory name : String) : ∃ between, between ⊆ ['/'] ∧
    (join directory name).toList = directory.toList ++ (between ++ name.toList) := by
  rw [join]
  split_ifs
  · exact ⟨[], List.nil_subset _, String.toList_append⟩
  · refine ⟨['/'], List.Subset.refl _, ?_⟩
    rw [String.toList_append, String.toList_append, List.append_assoc]
    rfl

/-- The pieces of the path of a name in a directory are those of the directory, less an empty one at
the end, and the name. -/
theorem pieces_join {directory name : String} (named : directory ≠ "")
    (plain : '/' ∉ name.toList) :
    pieces (join directory name) = pieces directory ++ [name.toList] ∨
      ∃ before, pieces directory = before ++ [[]] ∧
        pieces (join directory name) = before ++ [name.toList] := by
  have one : name.toList.splitOn '/' = [name.toList] := List.splitOn_eq_singleton plain
  have cut : ∀ first second : Text, (first ++ '/' :: second).splitOn '/' =
      first.splitOn '/' ++ second.splitOn '/' := by
    intro first second
    exact List.splitOnP_append_cons first second (by decide)
  by_cases slash : directory.toList.getLast? = some '/'
  · obtain ⟨before, whole⟩ := List.getLast?_eq_some_iff.mp slash
    refine .inr ⟨before.splitOn '/', ?_, ?_⟩
    · rw [pieces, whole, cut]
      rfl
    · rw [pieces, join, if_pos (.inr slash), String.toList_append, whole, List.append_assoc,
        List.singleton_append, cut, one]
  · left
    rw [pieces, join, if_neg (by simp [named, slash]), String.toList_append, String.toList_append,
      List.append_assoc]
    exact (cut _ _).trans (congrArg _ one)

end Path

namespace FileTree

/-- A tree without what is in its directories. -/
def node : FileTree → Node
  | file contents => .file contents
  | directory entries => .directory (entries.map Prod.fst)

/-- What is at the end of a list of names. -/
def nodeAt? (tree : FileTree) (place : List String) : Option Node :=
  (tree.find? place).map node

/-- The bytes of the file at the end of a list of names. -/
def fileAt? (tree : FileTree) (place : List String) : Option ByteArray :=
  match tree.nodeAt? place with
  | some (.file contents) => some contents
  | some (.directory _) | none => none

theorem nodeAt?_nil (tree : FileTree) : tree.nodeAt? [] = some tree.node := rfl

/-- There is nothing below a file. -/
theorem nodeAt?_file_cons (contents : ByteArray) (name : String) (rest : List String) :
    (file contents).nodeAt? (name :: rest) = none := rfl

/-- Below a directory there is what is below its entries. -/
theorem nodeAt?_directory_cons (entries : List (String × FileTree)) (name : String)
    (rest : List String) :
    (directory entries).nodeAt? (name :: rest) = (entries.lookup name).bind (nodeAt? · rest) := by
  rw [nodeAt?, find?]
  cases entries.lookup name <;> rfl

/-- A place below another is found from there. -/
theorem find?_append (tree : FileTree) (place rest : List String) :
    tree.find? (place ++ rest) = (tree.find? place).bind (find? rest) := by
  induction place generalizing tree with
  | nil => rfl
  | cons name others hypothesis =>
    cases tree with
    | file contents => rfl
    | directory entries =>
      rw [List.cons_append, find?, find?]
      cases entries.lookup name with
      | none => rfl
      | some found => exact hypothesis found

/-! ## Writing a file -/

/-- Replacing an entry replaces what is found under its name. -/
theorem lookup_map_replace (entries : List (String × FileTree)) (name other : String)
    (replaced : FileTree) :
    (entries.map fun (entry, tree) =>
        (entry, if entry = name then replaced else tree)).lookup other =
      (entries.lookup other).map fun tree => if other = name then replaced else tree := by
  induction entries with
  | nil => rfl
  | cons entry rest hypothesis =>
    obtain ⟨found, tree⟩ := entry
    rw [List.map_cons, List.lookup_cons, List.lookup_cons]
    by_cases same : other = found
    · subst same
      simp
    · have different : (other == found) = false := beq_false_of_ne same
      simp only [different]
      exact hypothesis

/-- A file can be put at a place: one is there, or nothing is there and a directory is above. -/
inductive Writable : FileTree → List String → Prop where
  | present {tree : FileTree} {place : List String} {contents : ByteArray}
      (found : tree.find? place = some (file contents)) : Writable tree place
  | absent {tree : FileTree} {above : List String} {name : String}
      {entries : List (String × FileTree)} (found : tree.find? above = some (directory entries))
      (missing : entries.lookup name = none) : Writable tree (above ++ [name])

/-- What is at the end of names is below the first of them. -/
theorem find?_cons_eq_some {tree found : FileTree} {name : String} {rest : List String}
    (here : tree.find? (name :: rest) = some found) : ∃ entries next,
      tree = directory entries ∧ entries.lookup name = some next ∧
        next.find? rest = some found := by
  cases tree with
  | file _ => cases here
  | directory entries =>
    rw [find?] at here
    cases known : entries.lookup name with
    | none =>
      rw [known] at here
      cases here
    | some next =>
      rw [known] at here
      exact ⟨entries, next, rfl, known, here⟩

section

variable {entries : List (String × FileTree)} {name : String} {next : FileTree}
  (known : entries.lookup name = some next) (rest : List String) (added : FileTree)

include known

/-- What is written below a name in a directory changes what is below that name. -/
theorem nodeAt?_insert_below (others : List String) :
    ((directory entries).insert (name :: rest) added).nodeAt? (name :: others) =
      (next.insert rest added).nodeAt? others := by
  simp only [insert, known]
  rw [nodeAt?_directory_cons, lookup_map_replace, known]
  simp

/-- What is written below a name in a directory changes nothing else. -/
theorem nodeAt?_insert_beside {other : List String} (beside : ∀ others, other ≠ name :: others) :
    ((directory entries).insert (name :: rest) added).nodeAt? other =
      (directory entries).nodeAt? other := by
  simp only [insert, known]
  cases other with
  | nil => simp [nodeAt?_nil, node, Function.comp_def]
  | cons entry others =>
    have different : entry ≠ name := fun same => beside others (by rw [same])
    rw [nodeAt?_directory_cons, nodeAt?_directory_cons, lookup_map_replace]
    simp [different]

end

/-- A file that is written again keeps its place, and nothing else changes. -/
theorem nodeAt?_insert_of_present {tree : FileTree} {place : List String} {old : ByteArray}
    (found : tree.find? place = some (file old)) (contents : ByteArray) (other : List String) :
    (tree.insert place (file contents)).nodeAt? other =
      if other = place then some (.file contents) else tree.nodeAt? other := by
  induction place generalizing tree other with
  | nil =>
    cases found
    cases other with
    | nil => rfl
    | cons name rest => rfl
  | cons name rest hypothesis =>
    obtain ⟨entries, next, rfl, known, here⟩ := find?_cons_eq_some found
    by_cases below : ∃ others, other = name :: others
    · obtain ⟨others, rfl⟩ := below
      rw [nodeAt?_insert_below known, hypothesis here, nodeAt?_directory_cons, known]
      simp
    · rw [nodeAt?_insert_beside known rest _ fun others same => below ⟨others, same⟩, if_neg]
      exact fun same => below ⟨rest, same⟩

/-- A new file is at its place and in the list of the directory above, and nothing else changes. -/
theorem nodeAt?_insert_of_absent {tree : FileTree} {above : List String} {name : String}
    {entries : List (String × FileTree)} (found : tree.find? above = some (directory entries))
    (missing : entries.lookup name = none) (contents : ByteArray) (other : List String) :
    (tree.insert (above ++ [name]) (file contents)).nodeAt? other =
      if other = above ++ [name] then some (.file contents)
      else if other = above then some (.directory (entries.map Prod.fst ++ [name]))
      else tree.nodeAt? other := by
  induction above generalizing tree other with
  | nil =>
    cases found
    simp only [List.nil_append, insert, missing]
    cases other with
    | nil => simp [nodeAt?_nil, node]
    | cons entry others =>
      rw [nodeAt?_directory_cons, nodeAt?_directory_cons, List.lookup_append]
      by_cases same : entry = name
      · subst same
        cases others with
        | nil => simp [missing, nodeAt?_nil, node]
        | cons next rest => simp [missing, nodeAt?_file_cons]
      · have different : (entry == name) = false := beq_false_of_ne same
        simp [same, List.lookup_cons, different]
  | cons first rest hypothesis =>
    obtain ⟨listed, next, rfl, known, here⟩ := find?_cons_eq_some found
    by_cases below : ∃ others, other = first :: others
    · obtain ⟨others, rfl⟩ := below
      rw [List.cons_append, nodeAt?_insert_below known, hypothesis here, nodeAt?_directory_cons,
        known]
      simp
    · rw [List.cons_append, nodeAt?_insert_beside known _ _ fun others same => below ⟨others, same⟩,
        if_neg, if_neg]
      · exact fun same => below ⟨_, same⟩
      · exact fun same => below ⟨_, same⟩

/-! ## Places -/

section

variable {tree : FileTree} {place : List String}

/-- There is no node where there is no tree. -/
theorem nodeAt?_eq_none_iff : tree.nodeAt? place = none ↔ tree.find? place = none :=
  Option.map_eq_none_iff

/-- A node is a file just when the tree there is one. -/
theorem nodeAt?_eq_file_iff {contents : ByteArray} :
    tree.nodeAt? place = some (.file contents) ↔ tree.find? place = some (file contents) := by
  rw [nodeAt?]
  cases tree.find? place with
  | none => simp
  | some found => cases found <;> simp [node]

/-- A node is a directory just when the tree there is one with entries of these names. -/
theorem nodeAt?_eq_directory_iff {names : List String} :
    tree.nodeAt? place = some (.directory names) ↔
      ∃ entries, tree.find? place = some (directory entries) ∧ entries.map Prod.fst = names := by
  rw [nodeAt?]
  cases tree.find? place with
  | none => simp
  | some found => cases found <;> simp [node]

/-- A file is found just when the tree there is one. -/
theorem fileAt?_eq_some_iff {contents : ByteArray} :
    tree.fileAt? place = some contents ↔ tree.find? place = some (file contents) := by
  rw [← nodeAt?_eq_file_iff, fileAt?]
  split
  · rename_i found
    simp [found]
  · rename_i found
    simp [found]
  · rename_i found
    simp [found]

/-- What is in a directory is found under its name. -/
theorem find?_concat {entries : List (String × FileTree)}
    (found : tree.find? place = some (directory entries)) (name : String) :
    tree.find? (place ++ [name]) = entries.lookup name := by
  rw [find?_append, found, Option.bind_some, find?]
  cases entries.lookup name <;> rfl

end

namespace Writable

variable {tree : FileTree} {place : List String}

/-- Writing a file changes no other file. -/
theorem fileAt?_insert (writable : Writable tree place) (contents : ByteArray)
    (other : List String) : (tree.insert place (file contents)).fileAt? other =
      if other = place then some contents else tree.fileAt? other := by
  cases writable with
  | present found =>
    rw [fileAt?, nodeAt?_insert_of_present found]
    split_ifs with same
    · rfl
    · rfl
  | absent found missing =>
    rw [fileAt?, nodeAt?_insert_of_absent found missing]
    split_ifs with same above
    · rfl
    · rw [fileAt?, above, nodeAt?_eq_directory_iff.mpr ⟨_, found, rfl⟩]
    · rfl

/-- A directory is one still after a file is written. -/
theorem directory_insert (writable : Writable tree place) (contents : ByteArray)
    {other names : List String} (directory : tree.nodeAt? other = some (.directory names)) :
    ∃ names, (tree.insert place (file contents)).nodeAt? other = some (.directory names) := by
  cases writable with
  | present found =>
    rw [nodeAt?_insert_of_present found, if_neg]
    · exact ⟨names, directory⟩
    · rintro rfl
      cases directory.symm.trans (nodeAt?_eq_file_iff.mpr found)
  | absent found missing =>
    rw [nodeAt?_insert_of_absent found missing, if_neg]
    · split_ifs with same
      · exact ⟨_, rfl⟩
      · exact ⟨names, directory⟩
    · rintro rfl
      have nothing := (find?_concat found _).trans missing
      cases directory.symm.trans (nodeAt?_eq_none_iff.mpr nothing)

end Writable

/-! ## Following paths -/

/-- A path is followed one piece after another. -/
theorem follow_cons (tree : FileTree) (place : List String) (piece : Text) (rest : List Text) :
    tree.follow place (piece :: rest) =
      match tree.nodeAt? place with
      | none => .error .notFound
      | some (.file _) => .error .notDirectory
      | some (.directory _) =>
        if Path.isIdle piece then tree.follow place rest
        else if Path.isParent piece then tree.follow place.dropLast rest
        else if 255 < Text.size piece then .error .nameTooLong
        else tree.follow (place ++ [String.ofList piece]) rest := by
  rw [follow, nodeAt?]
  cases tree.find? place with
  | none => rfl
  | some found => cases found <;> rfl

/-- A path is followed as its first pieces and then the others. -/
theorem follow_append (tree : FileTree) (place : List String) (first second : List Text) :
    tree.follow place (first ++ second) =
      (tree.follow place first).bind (tree.follow · second) := by
  induction first generalizing place with
  | nil => rfl
  | cons piece rest hypothesis =>
    rw [List.cons_append, follow_cons, follow_cons]
    cases tree.nodeAt? place with
    | none => rfl
    | some found =>
      cases found with
      | file _ => rfl
      | directory names =>
        dsimp only
        split_ifs
        · exact hypothesis place
        · exact hypothesis place.dropLast
        · rfl
        · exact hypothesis _

/-- Pieces that name nothing lead from a directory to itself. -/
theorem follow_idle {tree : FileTree} {place : List String}
    {entries : List (String × FileTree)} (here : tree.find? place = some (directory entries))
    {pieces : List Text} (idle : ∀ piece ∈ pieces, Path.isIdle piece) :
    tree.follow place pieces = .ok place := by
  induction pieces with
  | nil => rfl
  | cons piece rest hypothesis =>
    rw [List.forall_mem_cons] at idle
    rw [follow, here]
    dsimp only
    rw [if_pos idle.1]
    exact hypothesis idle.2

/-- A path leads to the same place in a tree with the same directories and more. -/
theorem follow_mono {tree other : FileTree}
    (kept : ∀ place names, tree.nodeAt? place = some (.directory names) →
      ∃ names, other.nodeAt? place = some (.directory names))
    {place found : List String} {pieces : List Text}
    (followed : tree.follow place pieces = .ok found) : other.follow place pieces = .ok found := by
  induction pieces generalizing place with
  | nil => exact followed
  | cons piece rest hypothesis =>
    rw [follow_cons] at followed ⊢
    cases here : tree.nodeAt? place with
    | none =>
      rw [here] at followed
      cases followed
    | some node =>
      rw [here] at followed
      cases node with
      | file _ => cases followed
      | directory names =>
        obtain ⟨others, there⟩ := kept place names here
        rw [there]
        dsimp only at followed ⊢
        split_ifs at followed ⊢
        · exact hypothesis followed
        · exact hypothesis followed
        · exact hypothesis followed

/-- The directory above a place that is there. -/
theorem find?_dropLast {tree : FileTree} {place : List String}
    {entries : List (String × FileTree)} (found : tree.find? place = some (directory entries)) :
    ∃ entries, tree.find? place.dropLast = some (directory entries) := by
  cases place using List.reverseRecOn with
  | nil => exact ⟨entries, found⟩
  | append_singleton above name =>
    rw [List.dropLast_concat]
    rw [find?_append] at found
    cases parent : tree.find? above with
    | none =>
      rw [parent] at found
      cases found
    | some node =>
      rw [parent] at found
      cases node with
      | file _ => cases found
      | directory listed => exact ⟨listed, rfl⟩

/-- A path with pieces leads to a directory, or to a name in a directory. -/
theorem follow_cases {tree : FileTree} {place last : List String} {pieces : List Text}
    (followed : tree.follow place pieces = .ok last) (nonempty : pieces ≠ []) :
    (∃ entries, tree.find? last = some (directory entries)) ∨
      ∃ above name entries, last = above ++ [name] ∧
        tree.find? above = some (directory entries) := by
  induction pieces generalizing place with
  | nil => exact absurd rfl nonempty
  | cons piece rest hypothesis =>
    -- The last piece leads on from a directory, and every piece before it to one.
    have further : ∀ next : List String, tree.follow next rest = .ok last →
        (rest = [] → (∃ entries, tree.find? next = some (directory entries)) ∨
          ∃ above name entries, next = above ++ [name] ∧
            tree.find? above = some (directory entries)) →
        (∃ entries, tree.find? last = some (directory entries)) ∨
          ∃ above name entries, last = above ++ [name] ∧
            tree.find? above = some (directory entries) := by
      intro next remaining ends
      by_cases done : rest = []
      · subst done
        cases remaining
        exact ends rfl
      · exact hypothesis remaining done
    rw [follow] at followed
    split at followed
    · cases followed
    · cases followed
    · rename_i entries found
      split_ifs at followed
      · exact further place followed fun _ => .inl ⟨entries, found⟩
      · exact further place.dropLast followed fun _ => .inl (find?_dropLast found)
      · exact further _ followed fun _ => .inr ⟨place, _, entries, rfl, found⟩

/-! ## Resolving paths -/

section

variable {tree : FileTree} {current place : List String} {path : String} {pieces : List Text}

/-- What is asked of a path before it is followed. -/
theorem resolve_ok_iff : tree.resolve current path pieces = .ok place ↔
    '\x00' ∉ path.toList ∧ path ≠ "" ∧ path.utf8ByteSize < 4096 ∧
      tree.follow (if path.toList.head? = some '/' then [] else current) pieces = .ok place := by
  rw [resolve]
  simp only [List.contains_iff_mem]
  by_cases nul : '\x00' ∈ path.toList
  · simp [nul]
  · by_cases empty : path = ""
    · simp [empty]
    · by_cases long : 4096 ≤ path.utf8ByteSize
      · simp only [nul, empty, long, ↓reduceIte, reduceCtorEq, false_iff]
        omega
      · have short : path.utf8ByteSize < 4096 := Nat.lt_of_not_le long
        simp only [nul, empty, long, short, ↓reduceIte, ne_eq, not_false_eq_true, true_and]
        split_ifs
        · rfl
        · rfl

/-- What a path leads to is what is found at the place it resolves to. -/
theorem access_ok_iff {found : FileTree} : tree.access current path = .ok found ↔
    ∃ place, tree.resolve current path (Path.pieces path) = .ok place ∧
      tree.find? place = some found := by
  rw [access]
  cases resolved : tree.resolve current path (Path.pieces path) with
  | error error => simp [bind, Except.bind]
  | ok place =>
    cases here : tree.find? place <;> simp [bind, Except.bind, here]

/-- A path that does not end in a slash is followed piece by piece to write a file. -/
theorem targetPieces_eq (named : path ≠ "") (unclosed : path.toList.getLast? ≠ some '/') :
    targetPieces path = Path.pieces path := by
  obtain ⟨before, last, pieces, nonempty⟩ := Path.exists_pieces_eq named unclosed
  rw [targetPieces, if_neg unclosed, pieces, List.reverse_append, List.reverse_singleton,
    List.singleton_append, List.dropWhile_cons_of_neg (by simpa using nonempty),
    List.reverse_cons, List.reverse_reverse]

/-- A file can be written at the place its path resolves to. -/
theorem target_ok (targeted : tree.target current path = .ok place) :
    tree.resolve current path (Path.pieces path) = .ok place ∧ Writable tree place := by
  rw [target] at targeted
  cases resolved : tree.resolve current path (targetPieces path) with
  | error error =>
    rw [resolved] at targeted
    cases targeted
  | ok reached =>
    rw [resolved] at targeted
    change (if path.toList.getLast? = some '/' then _ else _) = _ at targeted
    split_ifs at targeted with slash
    have given := resolve_ok_iff.mp resolved
    rw [targetPieces_eq given.2.1 slash] at resolved given
    obtain ⟨before, last, pieces, -⟩ := Path.exists_pieces_eq given.2.1 slash
    split at targeted
    · cases targeted
    · rename_i found
      cases targeted
      exact ⟨resolved, .present found⟩
    · rename_i missing
      cases targeted
      refine ⟨resolved, ?_⟩
      rcases follow_cases given.2.2.2 (by simp [pieces]) with ⟨entries, found⟩ |
        ⟨above, name, entries, rfl, found⟩
      · cases missing.symm.trans found
      · exact .absent found ((find?_concat found name).symm.trans missing)

/-- A path leads to the file that was written under it. -/
theorem access_insert (targeted : tree.target current path = .ok place) (contents : ByteArray) :
    (tree.insert place (file contents)).access current path = .ok (file contents) := by
  obtain ⟨resolved, writable⟩ := target_ok targeted
  obtain ⟨nul, named, short, followed⟩ := resolve_ok_iff.mp resolved
  refine access_ok_iff.mpr ⟨place, resolve_ok_iff.mpr ⟨nul, named, short, ?_⟩, ?_⟩
  · exact follow_mono (fun other names directory => writable.directory_insert contents directory)
      followed
  · rw [← fileAt?_eq_some_iff, writable.fileAt?_insert, if_pos rfl]

end

/-! ## Entries of directories -/

/-- A name that an entry of a directory can have. -/
structure IsFileName (name : String) : Prop where
  nonempty : name ≠ ""
  self : name ≠ "."
  parent : name ≠ ".."
  slash : '/' ∉ name.toList
  nul : '\x00' ∉ name.toList
  short : Text.size name.toList ≤ 255

instance (name : String) : Decidable (IsFileName name) :=
  decidable_of_iff (name ≠ "" ∧ name ≠ "." ∧ name ≠ ".." ∧ '/' ∉ name.toList ∧
      '\x00' ∉ name.toList ∧ Text.size name.toList ≤ 255)
    ⟨fun ⟨nonempty, self, parent, slash, nul, short⟩ => ⟨nonempty, self, parent, slash, nul, short⟩,
      fun valid => ⟨valid.nonempty, valid.self, valid.parent, valid.slash, valid.nul, valid.short⟩⟩

/-- The entries of every directory have names, and different ones. -/
def WellFormed (tree : FileTree) : Prop :=
  ∀ place entries, tree.find? place = some (directory entries) →
    (entries.map Prod.fst).Nodup ∧ ∀ name ∈ entries.map Prod.fst, IsFileName name

/-- A name leads to what it is listed with in a directory without repetitions. -/
theorem lookup_eq_some_iff_mem {entries : List (String × FileTree)}
    (distinct : (entries.map Prod.fst).Nodup) {name : String} {found : FileTree} :
    entries.lookup name = some found ↔ (name, found) ∈ entries := by
  induction entries with
  | nil => simp
  | cons entry rest hypothesis =>
    obtain ⟨listed, tree⟩ := entry
    rw [List.map_cons, List.nodup_cons] at distinct
    rw [List.lookup_cons, List.mem_cons, Prod.mk.injEq]
    by_cases same : name = listed
    · subst same
      have once : (name, found) ∉ rest := fun inside =>
        distinct.1 (List.mem_map.mpr ⟨_, inside, rfl⟩)
      simp [once, eq_comm]
    · have different : (name == listed) = false := beq_false_of_ne same
      simp only [different, same, false_and, false_or]
      exact hypothesis distinct.2

theorem wellFormed_file (contents : ByteArray) : (file contents).WellFormed := by
  intro place entries found
  cases place with
  | nil => cases found
  | cons name rest => cases found

/-- A directory is well formed if its entries have different names and are well formed. -/
theorem wellFormed_directory {entries : List (String × FileTree)}
    (distinct : (entries.map Prod.fst).Nodup)
    (valid : ∀ name ∈ entries.map Prod.fst, IsFileName name)
    (below : ∀ entry ∈ entries, entry.2.WellFormed) : (directory entries).WellFormed := by
  intro place listed found
  cases place with
  | nil =>
    cases found
    exact ⟨distinct, valid⟩
  | cons name rest =>
    obtain ⟨_, next, same, known, here⟩ := find?_cons_eq_some found
    cases same
    exact below _ ((lookup_eq_some_iff_mem distinct).mp known) rest listed here

/-- The name of a file leads somewhere. -/
theorem IsFileName.not_idle {name : String} (valid : IsFileName name) :
    ¬Path.isIdle name.toList := by
  have nonempty : name.toList ≠ [] := fun same => valid.nonempty (String.ext same)
  have self : name.toList ≠ ['.'] := fun same => valid.self (String.ext same)
  simp [Path.isIdle, nonempty, self]

/-- The name of a file does not lead upwards. -/
theorem IsFileName.not_parent {name : String} (valid : IsFileName name) :
    ¬Path.isParent name.toList := by
  have parent : name.toList ≠ ['.', '.'] := fun same => valid.parent (String.ext same)
  simp [Path.isParent, parent]

section

variable {tree : FileTree} {current : List String} {input : String}
  {entries : List (String × FileTree)}

/-- The path of a name in a directory leads on from the directory to the name. -/
theorem follow_join (named : input ≠ "") {name : String} (valid : IsFileName name)
    {place start : List String} (followed : tree.follow start (Path.pieces input) = .ok place)
    (here : tree.find? place = some (directory entries)) :
    tree.follow start (Path.pieces (Path.join input name)) = .ok (place ++ [name]) := by
  have node := nodeAt?_eq_directory_iff.mpr ⟨entries, here, rfl⟩
  have step : tree.follow place [name.toList] = .ok (place ++ [name]) := by
    have short : ¬255 < Text.size name.toList := Nat.not_lt.mpr valid.short
    rw [follow_cons, node]
    simp only [valid.not_idle, valid.not_parent, short, ↓reduceIte, String.ofList_toList]
    rfl
  rcases Path.pieces_join named valid.slash with joined | ⟨before, pieces, joined⟩
  · rw [joined, follow_append, followed]
    exact step
  · -- An empty piece at the end leads from a directory to itself.
    rw [pieces, follow_append] at followed
    cases head : tree.follow start before with
    | error error =>
      rw [head] at followed
      cases followed
    | ok reached =>
      rw [head] at followed
      change tree.follow reached [[]] = .ok place at followed
      rw [follow_cons] at followed
      split at followed
      · cases followed
      · cases followed
      · cases followed
        rw [joined, follow_append, head]
        exact step

/-- An entry of a directory is found under the path of the directory and its name, unless that path
is too long. -/
theorem access_join_ok_iff (listed : tree.access current input = .ok (directory entries))
    {name : String} (valid : IsFileName name) {found : FileTree} :
    tree.access current (Path.join input name) = .ok found ↔
      entries.lookup name = some found ∧ (Path.join input name).utf8ByteSize < 4096 := by
  obtain ⟨place, resolved, here⟩ := access_ok_iff.mp listed
  obtain ⟨nul, named, -, followed⟩ := resolve_ok_iff.mp resolved
  have nonempty : input.toList ≠ [] := fun same => named (String.ext same)
  obtain ⟨between, slashes, whole⟩ := Path.toList_join input name
  have head : (Path.join input name).toList.head? = input.toList.head? := by
    rw [whole, List.head?_append]
    cases characters : input.toList with
    | nil => exact absurd characters nonempty
    | cons character rest => rfl
  have further := follow_join named valid followed here
  have clean : '\x00' ∉ (Path.join input name).toList := by
    rw [whole, List.mem_append, List.mem_append]
    rintro (inside | inside | inside)
    · exact nul inside
    · exact absurd (slashes inside) (by decide)
    · exact valid.nul inside
  have something : Path.join input name ≠ "" := by
    intro same
    rw [same] at whole
    exact nonempty (List.append_eq_nil_iff.mp whole.symm).1
  rw [access_ok_iff, ← find?_concat here]
  constructor
  · rintro ⟨reached, resolvedToo, there⟩
    obtain ⟨-, -, short, followedToo⟩ := resolve_ok_iff.mp resolvedToo
    rw [head, further] at followedToo
    cases followedToo
    exact ⟨there, short⟩
  · rintro ⟨there, short⟩
    refine ⟨place ++ [name], resolve_ok_iff.mpr ⟨clean, something, short, ?_⟩, there⟩
    rw [head, further]

end

/-! ## The order of directories -/

/-- Two trees hold the same files in the same directories, which may be listed in other orders. -/
def Reordered (first second : FileTree) : Prop :=
  ∀ place, Node.Alike (first.nodeAt? place) (second.nodeAt? place)

namespace Reordered

variable {first second : FileTree} (reordered : Reordered first second)

include reordered

/-- At any place, two trees that differ in order both have nothing, the same file, or directories
with the same names. -/
theorem cases (place : List String) :
    (first.find? place = none ∧ second.find? place = none) ∨
    (∃ contents, first.find? place = some (file contents) ∧
      second.find? place = some (file contents)) ∨
    ∃ entries others, first.find? place = some (directory entries) ∧
      second.find? place = some (directory others) ∧
      (entries.map Prod.fst).Perm (others.map Prod.fst) := by
  have alike := reordered place
  generalize left : first.nodeAt? place = here at alike
  generalize right : second.nodeAt? place = there at alike
  cases alike with
  | absent => exact .inl ⟨nodeAt?_eq_none_iff.mp left, nodeAt?_eq_none_iff.mp right⟩
  | file contents =>
    exact .inr (.inl ⟨contents, nodeAt?_eq_file_iff.mp left, nodeAt?_eq_file_iff.mp right⟩)
  | directory same =>
    obtain ⟨entries, found, rfl⟩ := nodeAt?_eq_directory_iff.mp left
    obtain ⟨others, foundToo, rfl⟩ := nodeAt?_eq_directory_iff.mp right
    exact .inr (.inr ⟨entries, others, found, foundToo, same⟩)

theorem find?_none {place : List String} (missing : first.find? place = none) :
    second.find? place = none := by
  rcases reordered.cases place with ⟨-, right⟩ | ⟨_, left, -⟩ | ⟨_, _, left, -⟩
  · exact right
  · cases left.symm.trans missing
  · cases left.symm.trans missing

theorem find?_file {place : List String} {contents : ByteArray}
    (found : first.find? place = some (file contents)) :
    second.find? place = some (file contents) := by
  rcases reordered.cases place with ⟨left, -⟩ | ⟨_, left, right⟩ | ⟨_, _, left, -⟩
  · cases left.symm.trans found
  · cases left.symm.trans found
    exact right
  · cases left.symm.trans found

/-- There is a directory where the other tree has one, with the same names. -/
theorem find?_directory {place : List String} {entries : List (String × FileTree)}
    (found : first.find? place = some (directory entries)) :
    ∃ others, second.find? place = some (directory others) ∧
      (entries.map Prod.fst).Perm (others.map Prod.fst) := by
  rcases reordered.cases place with ⟨left, -⟩ | ⟨_, left, -⟩ | ⟨_, others, left, right, same⟩
  · cases left.symm.trans found
  · cases left.symm.trans found
  · cases left.symm.trans found
    exact ⟨others, right, same⟩

/-- A path leads to the same place in both trees. -/
theorem follow_eq (place : List String) (pieces : List Text) :
    first.follow place pieces = second.follow place pieces := by
  induction pieces generalizing place with
  | nil => rfl
  | cons piece rest hypothesis =>
    rw [follow, follow]
    rcases reordered.cases place with ⟨left, right⟩ | ⟨contents, left, right⟩ |
      ⟨entries, others, left, right, -⟩
    · rw [left, right]
    · rw [left, right]
    · rw [left, right]
      simp only [hypothesis]

theorem resolve_eq (current : List String) (path : String) (pieces : List Text) :
    first.resolve current path pieces = second.resolve current path pieces := by
  rw [resolve, resolve, reordered.follow_eq, reordered.follow_eq]

theorem target_eq (current : List String) (path : String) :
    first.target current path = second.target current path := by
  rw [target, target, reordered.resolve_eq]
  cases second.resolve current path (targetPieces path) with
  | error error => rfl
  | ok place =>
    change (if _ then _ else _) = (if _ then _ else _)
    rcases reordered.cases place with ⟨left, right⟩ | ⟨contents, left, right⟩ |
      ⟨entries, others, left, right, -⟩
    · rw [left, right]
    · rw [left, right]
    · rw [left, right]

/-- A path leads to the same in both trees. -/
theorem access_cases (current : List String) (path : String) :
    (∃ error, first.access current path = .error error ∧
      second.access current path = .error error) ∨
    (∃ contents, first.access current path = .ok (file contents) ∧
      second.access current path = .ok (file contents)) ∨
    ∃ entries others, first.access current path = .ok (directory entries) ∧
      second.access current path = .ok (directory others) ∧
      (entries.map Prod.fst).Perm (others.map Prod.fst) := by
  rw [access, access, reordered.resolve_eq]
  cases second.resolve current path (Path.pieces path) with
  | error error => exact .inl ⟨error, rfl, rfl⟩
  | ok place =>
    simp only [bind, Except.bind]
    rcases reordered.cases place with ⟨left, right⟩ | ⟨contents, left, right⟩ |
      ⟨entries, others, left, right, same⟩
    · exact .inl ⟨.notFound, by rw [left], by rw [right]⟩
    · exact .inr (.inl ⟨contents, by rw [left], by rw [right]⟩)
    · exact .inr (.inr ⟨entries, others, by rw [left], by rw [right], same⟩)

/-- The trees stay the same but for their order when the same file is written in both. -/
theorem insert {place : List String} (writable : Writable first place) (contents : ByteArray) :
    Reordered (first.insert place (file contents)) (second.insert place (file contents)) := by
  intro other
  cases writable with
  | present found =>
    have foundToo := reordered.find?_file found
    rw [nodeAt?_insert_of_present found, nodeAt?_insert_of_present foundToo]
    split_ifs
    · exact .file contents
    · exact reordered other
  | absent found missing =>
    obtain ⟨others, foundToo, same⟩ := reordered.find?_directory found
    have missingToo := reordered.find?_none ((find?_concat found _).trans missing)
    rw [find?_concat foundToo] at missingToo
    rw [nodeAt?_insert_of_absent found missing, nodeAt?_insert_of_absent foundToo missingToo]
    split_ifs
    · exact .file contents
    · exact .directory (same.append_right _)
    · exact reordered other

end Reordered

end FileTree

end HackToolchain
