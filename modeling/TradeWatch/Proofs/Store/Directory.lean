/-
The table files of a store in a directory. A source stands in the directory itself and a result two
directories below, and all of them bear plain names with the extension of tables. So no table file
is ever in the way of a directory or of another table file: each of them is written in one step,
comes back as it was written, and leaves all others as they were.
-/
import TradeWatch.Proofs.Store.FileTree
import TradeWatch.Store.Directory

namespace TradeWatch

open TradeWatch.Path (IsEntry)

/-! ## Keys -/

/-- A key whose parts are plain. -/
structure OutputKey.IsPlain (key : OutputKey) : Prop where
  category : Path.IsPlain key.category
  kind : Path.IsPlain key.kind
  name : Path.IsPlain key.name

namespace OutputKey

instance (key : OutputKey) : Decidable key.IsPlain :=
  decidable_of_iff (Path.IsPlain key.category ∧ Path.IsPlain key.kind ∧ Path.IsPlain key.name)
    ⟨fun h => ⟨h.1, h.2.1, h.2.2⟩, fun h => ⟨h.1, h.2, h.3⟩⟩

variable {key other : OutputKey}

theorem IsPlain.pieces_text (h : key.IsPlain) :
    Path.pieces key.text = [key.category, key.kind, key.name] := by
  unfold text
  rw [Path.pieces_append, Path.pieces_append, Path.pieces_of_isEntry h.category.isEntry,
    Path.pieces_of_isEntry h.kind.isEntry, Path.pieces_of_isEntry h.name.isEntry]
  rfl

/-- Plain keys can be told apart by their texts. -/
theorem IsPlain.text_ne (h : key.IsPlain) (ho : other.IsPlain) (hne : other ≠ key) :
    other.text ≠ key.text := by
  intro htext
  have hpieces := ho.pieces_text
  rw [htext, h.pieces_text] at hpieces
  obtain ⟨c, k, n⟩ := key
  obtain ⟨c', k', n'⟩ := other
  cases hpieces
  exact hne rfl

end OutputKey

/-! ## Places -/

/-- Where a table file stands in the directory of a store. -/
structure TablePlace where
  directories : List String
  name : String

namespace TablePlace

open DirectoryStore (tableExtension csvExtension)

/-- The place of a source. -/
def source (name : String) : TablePlace := ⟨[], name⟩

/-- The place of a result. -/
def result (key : OutputKey) : TablePlace := ⟨[key.category, key.kind], key.name⟩

def file (place : TablePlace) : String := place.name ++ tableExtension

/-- The path of a place, for the directory of the store at `p`. -/
def path (p : Path) (place : TablePlace) : Path :=
  p ++ place.directories ++ [place.file]

structure IsPlain (place : TablePlace) : Prop where
  directories : ∀ d ∈ place.directories, Path.IsPlain d
  name : Path.IsPlain place.name

variable {p : Path} {place other : TablePlace}

theorem isPlain_source {name : String} (h : Path.IsPlain name) : (source name).IsPlain :=
  ⟨nofun, h⟩

theorem isPlain_result {key : OutputKey} (h : key.IsPlain) : (result key).IsPlain := by
  refine ⟨fun d hd => ?_, h.name⟩
  rcases List.mem_cons.1 hd with rfl | hd
  · exact h.category
  · obtain rfl := List.mem_singleton.1 hd
    exact h.kind

theorem IsPlain.isEntry_file (h : place.IsPlain) : IsEntry place.file :=
  h.name.isEntry_append (by decide) (by decide) (by decide)

theorem isEntry_csvFile {name : String} (h : Path.IsPlain name) : IsEntry (name ++ csvExtension) :=
  h.isEntry_append (by decide) (by decide) (by decide)

/-! ### Paths that differ -/

theorem dot_mem_append {name extension : String} (h : '.' ∈ extension.toList) :
    '.' ∈ (name ++ extension).toList := by
  rw [String.toList_append, List.mem_append]
  exact .inr h

theorem csvFile_ne_file (name : String) (place : TablePlace) :
    name ++ csvExtension ≠ place.file := by
  intro heq
  -- the names end in different letters
  have hlast : ∀ extension : String, extension.toList ≠ [] → ∀ name : String,
      (name ++ extension).toList.getLast? = extension.toList.getLast? := by
    intro extension hne name
    rw [String.toList_append, List.getLast?_append_of_ne_nil _ hne]
  have hletter := congrArg (·.toList.getLast?) heq
  unfold file at hletter
  simp only [hlast csvExtension (by decide), hlast tableExtension (by decide)] at hletter
  exact absurd hletter (by decide)

theorem path_injective (h : place.path p = other.path p) : place = other := by
  unfold path at h
  rw [List.append_assoc, List.append_assoc, List.append_cancel_left_eq,
    ← List.concat_eq_append, ← List.concat_eq_append, List.concat_inj] at h
  obtain ⟨hdirectories, hfile⟩ := h
  have hname : place.name = other.name := String.append_left_inj _ |>.1 hfile
  cases place
  cases other
  cases hdirectories
  cases hname
  rfl

/-- A path through plain directories is none of a file. -/
theorem ne_append_of_dot {name : String} (h : '.' ∈ name.toList) {ds pre : List String}
    (hpre : ∀ d ∈ pre, Path.IsPlain d) : p ++ ds ++ [name] ≠ p ++ pre := by
  intro heq
  rw [List.append_assoc, List.append_cancel_left_eq] at heq
  refine (hpre name ?_).dot h
  rw [← heq, List.mem_append]
  exact .inr List.mem_cons_self

theorem path_ne_append {pre : List String} (hpre : ∀ d ∈ pre, Path.IsPlain d) :
    place.path p ≠ p ++ pre :=
  ne_append_of_dot (dot_mem_append (by decide)) hpre

theorem csvPath_ne_append {name : String} {pre : List String} (hpre : ∀ d ∈ pre, Path.IsPlain d) :
    p ++ [name ++ csvExtension] ≠ p ++ pre := by
  have hne : p ++ [] ++ [name ++ csvExtension] ≠ p ++ pre :=
    ne_append_of_dot (dot_mem_append (by decide)) hpre
  rwa [List.append_nil] at hne

theorem csvPath_ne_path (name : String) : p ++ [name ++ csvExtension] ≠ place.path p := by
  intro heq
  unfold path at heq
  rw [← List.concat_eq_append, ← List.concat_eq_append, List.concat_inj] at heq
  exact csvFile_ne_file name place heq.2

end TablePlace

/-! ## The directory of a store -/

namespace DirectoryStore

variable {s : DirectoryStore} {p : Path} {place : TablePlace} {text : String}

/-- The store works in the directory at `p`: its text leads there, and where the directories and the
table files of the store belong, nothing else stands. -/
structure WorksAt (s : DirectoryStore) (p : Path) : Prop where
  limits : s.files.limits = .unlimited
  nul : Path.nul ∉ s.root.toList
  walk : (Path.dirPieces s.root).foldlM s.files.enter?
    (Path.start s.files.workingDirectory s.root) = some p
  noCsv : ∀ name, Path.IsPlain name → s.files.node? (p ++ [name ++ csvExtension]) = none
  directories : ∀ ds, ds ≠ [] → (∀ d ∈ ds, Path.IsPlain d) →
    s.files.node? (p ++ ds) = none ∨ s.files.node? (p ++ ds) = some .directory
  tables : ∀ place : TablePlace, place.IsPlain → s.files.node? (place.path p) ≠ some .directory
  above : ∀ place : TablePlace, place.IsPlain → s.files.node? (place.path p) ≠ none →
    ∀ pre, pre ≠ [] → pre <+: place.directories → s.files.node? (p ++ pre) = some .directory

/-- The store is new: its text names a directory in which nothing stands. -/
structure IsEmptyAt (s : DirectoryStore) (p : Path) : Prop where
  limits : s.files.limits = .unlimited
  located : s.files.locate? s.root = some p
  directory : s.files.isDirectory p = true
  nothing : ∀ q, q ≠ [] → s.files.node? (p ++ q) = none

theorem IsEmptyAt.worksAt (h : s.IsEmptyAt p) : s.WorksAt p := by
  have hplace : ∀ place : TablePlace, s.files.node? (place.path p) = none := by
    intro place
    unfold TablePlace.path
    rw [List.append_assoc]
    exact h.nothing _ (by simp)
  refine ⟨h.limits, FileTree.nul_not_mem_of_locate? h.located,
    FileTree.walk_of_locate? h.located h.directory, fun name _ => h.nothing _ (by simp),
    fun ds hne _ => .inl (h.nothing ds hne), fun place _ => ?_,
    fun place _ hnode => absurd (hplace place) hnode⟩
  rw [hplace place]
  nofun

/-- The text leads to the place. -/
def Names (s : DirectoryStore) (p : Path) (text : String) (place : TablePlace) : Prop :=
  s.files.LeadsTo text p place.directories place.file

theorem leadsTo_fileText (h : s.WorksAt p) {file : String} (hfile : IsEntry file) :
    s.files.LeadsTo (s.fileText file) p [] file := by
  refine ⟨Path.nul_not_mem_joinText h.nul hfile.nul, ⟨Path.dirPieces s.root, ?_, ?_⟩,
    Path.lastPiece_joinText hfile, nofun, hfile⟩
  · rw [List.append_nil]
    exact Path.parents_joinText hfile
  · unfold fileText
    rw [Path.start_joinText hfile]
    exact h.walk

theorem names_fileText (h : s.WorksAt p) {name : String} (hname : Path.IsPlain name) :
    s.Names p (s.fileText (name ++ tableExtension)) (.source name) :=
  leadsTo_fileText h (TablePlace.isPlain_source hname).isEntry_file

theorem names_outputText (h : s.WorksAt p) {key : OutputKey} (hkey : key.IsPlain) :
    s.Names p (s.outputText key) (.result key) := by
  have hc := hkey.category.isEntry
  have hk := hkey.kind.isEntry
  have hfile : IsEntry (key.name ++ tableExtension) := (TablePlace.isPlain_result hkey).isEntry_file
  refine ⟨?_, ⟨Path.dirPieces s.root, ?_, ?_⟩, Path.lastPiece_joinText hfile, fun d hd => ?_, hfile⟩
  · refine Path.nul_not_mem_joinText (Path.nul_not_mem_joinText ?_ hk.nul) hfile.nul
    exact Path.nul_not_mem_joinText h.nul hc.nul
  · unfold outputText fileText
    rw [Path.parents_joinText hfile, Path.dirPieces_joinText hk, Path.dirPieces_joinText hc,
      List.append_assoc]
    rfl
  · unfold outputText fileText
    rw [Path.start_joinText hfile, Path.start_joinText hk, Path.start_joinText hc]
    exact h.walk
  · exact ((TablePlace.isPlain_result hkey).directories d hd).isEntry

/-! ### Reading -/

/-- What a name leads to is what stands in its place. -/
theorem WorksAt.find?_eq (h : s.WorksAt p) (hplace : place.IsPlain)
    (hnames : s.Names p text place) : s.files.find? text = s.files.node? (place.path p) := by
  by_cases hnode : s.files.node? (place.path p) = none
  · rw [hnode]
    exact hnames.find?_eq_none h.limits hnode
  · exact hnames.find?_eq h.limits (h.above place hplace hnode)

/-- The table of what stands in a place. -/
def tableAt (s : DirectoryStore) (q : Path) : Except Fault (Option Table) :=
  match s.files.node? q with
  | some node => node.table.map some
  | none => .ok none

theorem WorksAt.source?_eq (h : s.WorksAt p) {name : String} (hname : Path.IsPlain name) :
    s.source? name = s.tableAt ((TablePlace.source name).path p) := by
  have hcsv : s.files.find? (s.fileText (name ++ csvExtension)) = none := by
    refine (leadsTo_fileText h (TablePlace.isEntry_csvFile hname)).find?_eq_none h.limits ?_
    rw [List.append_nil]
    exact h.noCsv name hname
  have hfind := h.find?_eq (TablePlace.isPlain_source hname) (names_fileText h hname)
  unfold source? tableAt
  cases hnode : s.files.node? ((TablePlace.source name).path p) with
  | none => simp only [hfind, hnode, hcsv]
  | some node => simp only [hfind, hnode]

theorem WorksAt.result?_eq (h : s.WorksAt p) {key : OutputKey} (hkey : key.IsPlain) :
    s.result? key = s.tableAt ((TablePlace.result key).path p) := by
  have hfind := h.find?_eq (TablePlace.isPlain_result hkey) (names_outputText h hkey)
  unfold result? tableAt
  cases hnode : s.files.node? ((TablePlace.result key).path p) with
  | none => simp only [hfind, hnode]
  | some node => simp only [hfind, hnode]

/-! ### Writing -/

section Written

variable {files : FileTree} {content : FileContent}

/-- Only the place and the directories above it change. -/
theorem node?_of_written (hplace : place.IsPlain)
    (hw : s.files.Written files p place.directories place.file content) {q : Path}
    (hq : q ≠ place.path p) (hdirs : ∀ pre, (∀ d ∈ pre, Path.IsPlain d) → q ≠ p ++ pre) :
    files.node? q = s.files.node? q :=
  hw.kept q hq fun pre _ hpre => hdirs pre fun d hd => hplace.directories d (hpre.subset hd)

theorem node?_path_of_written (hplace : place.IsPlain)
    (hw : s.files.Written files p place.directories place.file content) {other : TablePlace}
    (hne : other ≠ place) : files.node? (other.path p) = s.files.node? (other.path p) :=
  node?_of_written hplace hw (fun hpath => hne (TablePlace.path_injective hpath)) fun _ hpre =>
    TablePlace.path_ne_append hpre

theorem WorksAt.of_written (h : s.WorksAt p) (hplace : place.IsPlain)
    (hw : s.files.Written files p place.directories place.file content) :
    WorksAt ⟨files, s.root⟩ p := by
  have hextends : s.files.Extends files := hw.extends (h.tables place hplace)
  have hcontent : files.node? (place.path p) = some (.file content) := hw.content
  refine ⟨hw.limits.trans h.limits, h.nul, ?_, fun name hname => ?_, fun ds hne hds => ?_,
    fun other hother => ?_, fun other hother hnode pre hne hpre => ?_⟩
  · simp only [hw.workingDirectory]
    exact hextends.walk h.walk
  · rw [← h.noCsv name hname]
    exact node?_of_written hplace hw (TablePlace.csvPath_ne_path name) fun _ hpre =>
      TablePlace.csvPath_ne_append hpre
  · by_cases hpre : ds <+: place.directories
    · exact .inr (hw.made ds hne hpre)
    · rw [hw.kept _ (TablePlace.path_ne_append hds).symm fun pre _ hpre' heq => hpre ?_]
      · exact h.directories ds hne hds
      · rwa [List.append_cancel_left heq]
  · by_cases heq : other = place
    · rw [heq, hcontent]
      nofun
    · rw [node?_path_of_written hplace hw heq]
      exact h.tables other hother
  · by_cases heq : other = place
    · rw [heq] at hpre
      exact hw.made pre hne hpre
    · rw [node?_path_of_written hplace hw heq] at hnode
      have hdir := h.above other hother hnode pre hne hpre
      exact FileTree.isDirectory_iff.1 (hextends.directories _ (FileTree.isDirectory_iff.2 hdir))

end Written

/-- The store `u` is `s` with a table in a place. -/
structure Put (s u : DirectoryStore) (p : Path) (place : TablePlace) (t : Table) : Prop where
  works : u.WorksAt p
  table : u.tableAt (place.path p) = .ok (some t)
  kept : ∀ other : TablePlace, other.IsPlain → other ≠ place →
    u.tableAt (other.path p) = s.tableAt (other.path p)

/-- A file of batches is written in its place, and what comes back is the table of them. -/
theorem WorksAt.exists_put (h : s.WorksAt p) (hplace : place.IsPlain)
    (hnames : s.Names p text place) {first : Table} {rest : List Table} {t : Table}
    (ht : first.concat? rest = some t) :
    ∃ files, s.files.write text (.batches first rest) = (files, .ok ()) ∧
      s.Put ⟨files, s.root⟩ p place t := by
  have hclear : s.files.Clear p place.directories := fun pre hne hpre =>
    h.directories pre hne fun d hd => hplace.directories d (hpre.subset hd)
  obtain ⟨files, hwrite, hw⟩ := hnames.exists_write h.limits hclear (h.tables place hplace)
    (.batches first rest)
  refine ⟨files, hwrite, h.of_written hplace hw, ?_, fun other hother hne => ?_⟩
  · have hcontent : files.node? (place.path p) = some (.file (.batches first rest)) := hw.content
    unfold tableAt
    simp only [hcontent, FileNode.table, FileContent.table, ht]
    rfl
  · unfold tableAt
    rw [node?_path_of_written hplace hw hne]

end DirectoryStore

end TradeWatch
