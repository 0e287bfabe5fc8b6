/-
Files written into a tree without limits on names. Writing makes the directories that are missing
on the way, puts the file in its place and changes nothing else; no directory ever goes, so a text
that led somewhere still leads there.
-/
import TradeWatch.Proofs.Store.Path
import TradeWatch.Store.FileTree

namespace TradeWatch.FileTree

open TradeWatch.Path (IsEntry)

variable {t u : FileTree} {p q : Path}

/-! ## Nodes -/

theorem lookup_filter_ne {α β : Type} [BEq α] [LawfulBEq α] {a b : α} (h : a ≠ b)
    (nodes : List (α × β)) : (nodes.filter fun n => n.1 != b).lookup a = nodes.lookup a := by
  induction nodes with
  | nil => rfl
  | cons n nodes ih =>
    obtain ⟨c, x⟩ := n
    by_cases hc : c = b
    · subst hc
      rw [List.filter_cons_of_neg (by simp), ih, List.lookup_cons, beq_false_of_ne h]
    · rw [List.filter_cons_of_pos (by simpa using hc), List.lookup_cons, List.lookup_cons, ih]

theorem node?_put_self (hp : p ≠ []) (node : FileNode) : (t.put p node).node? p = some node := by
  unfold node? put
  rw [if_neg (by simpa using hp)]
  exact List.lookup_cons_self

theorem node?_put_of_ne (h : q ≠ p) (node : FileNode) : (t.put p node).node? q = t.node? q := by
  unfold node? put erase
  split
  · rfl
  · simp only [List.lookup_cons, beq_false_of_ne h]
    exact lookup_filter_ne h t.nodes

theorem isDirectory_iff : t.isDirectory q = true ↔ t.node? q = some .directory := by
  unfold isDirectory
  cases t.node? q with
  | none => simp
  | some node => cases node <;> simp [FileNode.isDirectory]

/-! ## Walks -/

/-- The directories of `t` are still there in `u`. -/
structure Extends (t u : FileTree) : Prop where
  limits : u.limits = t.limits
  workingDirectory : u.workingDirectory = t.workingDirectory
  directories : ∀ q, t.isDirectory q = true → u.isDirectory q = true

theorem Extends.enter? (h : t.Extends u) {place inner : Path} {piece : String}
    (he : t.enter? place piece = some inner) : u.enter? place piece = some inner := by
  unfold FileTree.enter? at he ⊢
  split
  · rename_i hstay
    rwa [if_pos hstay] at he
  rename_i hstay
  rw [if_neg hstay] at he
  split
  · rename_i hback
    rwa [if_pos hback] at he
  rename_i hback
  rw [if_neg hback] at he
  split at he
  · rename_i hdir
    rwa [if_pos (h.directories _ hdir)]
  · cases he

theorem Extends.walk (h : t.Extends u) {place : Path} {pieces : List String}
    (hw : pieces.foldlM t.enter? place = some q) : pieces.foldlM u.enter? place = some q := by
  induction pieces generalizing place with
  | nil => exact hw
  | cons piece pieces ih =>
    rw [List.foldlM_cons] at hw ⊢
    obtain ⟨inner, he, hw⟩ := Option.bind_eq_some_iff.1 hw
    rw [h.enter? he]
    exact ih hw

/-- A name leads into its directory. -/
theorem enter?_of_name {piece : String} (h : Path.isStep piece = false) (place : Path) :
    t.enter? place piece =
      if t.isDirectory (place ++ [piece]) then some (place ++ [piece]) else none := by
  unfold Path.isStep at h
  rw [Bool.or_eq_false_iff, Bool.or_eq_false_iff, beq_eq_false_iff_ne, beq_eq_false_iff_ne,
    beq_eq_false_iff_ne] at h
  obtain ⟨⟨hempty, hdot⟩, hdots⟩ := h
  unfold enter?
  rw [if_neg (not_or.2 ⟨hempty, hdot⟩), if_neg hdots]

/-- A walk through entries goes down by them. -/
theorem eq_append_of_walk {ds : List String} (hds : ∀ d ∈ ds, IsEntry d)
    (h : ds.foldlM t.enter? p = some q) : q = p ++ ds := by
  induction ds generalizing p with
  | nil =>
    cases h
    rw [List.append_nil]
  | cons d ds ih =>
    rw [List.foldlM_cons] at h
    obtain ⟨inner, he, h⟩ := Option.bind_eq_some_iff.1 h
    rw [enter?_of_name (hds d List.mem_cons_self).step] at he
    split at he
    · cases he
      rw [ih (fun e he => hds e (List.mem_cons_of_mem _ he)) h, List.append_assoc]
      rfl
    · cases he

theorem walk_of_directories {ds : List String} (hds : ∀ d ∈ ds, IsEntry d)
    (h : ∀ pre, pre ≠ [] → pre <+: ds → t.node? (p ++ pre) = some .directory) :
    ds.foldlM t.enter? p = some (p ++ ds) := by
  induction ds generalizing p with
  | nil =>
    rw [List.append_nil]
    rfl
  | cons d ds ih =>
    have hd : t.isDirectory (p ++ [d]) = true :=
      isDirectory_iff.2 (h [d] (by simp) (List.prefix_append [d] ds))
    rw [List.foldlM_cons, enter?_of_name (hds d List.mem_cons_self).step, if_pos hd]
    have hds' : ∀ e ∈ ds, IsEntry e := fun e he => hds e (List.mem_cons_of_mem _ he)
    have hrest := ih (p := p ++ [d]) hds' fun pre _ hpre => by
      rw [List.append_assoc]
      exact h (d :: pre) (by simp) (List.cons_prefix_cons.2 ⟨rfl, hpre⟩)
    rw [List.append_assoc] at hrest
    exact hrest

theorem nul_not_mem_of_locate? {text : String} (h : t.locate? text = some p) :
    Path.nul ∉ text.toList := by
  unfold locate? PathLimits.admitsText at h
  split at h
  · rename_i hadmits
    rw [Bool.and_eq_true, Bool.not_eq_true', List.contains_eq_mem,
      decide_eq_false_iff_not] at hadmits
    exact hadmits.2
  · cases h

/-- The pieces of a text walk to the directory that it names. -/
theorem walk_of_locate? {text : String} (h : t.locate? text = some p)
    (hdir : t.isDirectory p = true) :
    (Path.dirPieces text).foldlM t.enter? (Path.start t.workingDirectory text) = some p := by
  unfold locate? at h
  split at h
  · obtain ⟨place, hwalk, hlast⟩ := Option.bind_eq_some_iff.1 h
    unfold Path.dirPieces
    split
    · -- the last piece is empty and stays in the directory
      rename_i hend
      have hempty : Path.lastPiece text = "" := by
        rcases hend with rfl | hslash
        · decide
        · obtain ⟨front, rfl⟩ := Path.exists_of_getLast?_slash hslash
          unfold Path.lastPiece
          rw [Path.pieces_append_slash, List.getLast?_concat]
          rfl
      rw [hempty] at hlast
      cases hlast
      exact hwalk
    · rw [Path.pieces_eq, List.foldlM_append, hwalk]
      cases hstep : Path.isStep (Path.lastPiece text) with
      | true =>
        simp only [hstep, if_true] at hlast
        simpa using hlast
      | false =>
        simp only [hstep, Bool.false_eq_true, if_false] at hlast
        cases hlast
        have henter := enter?_of_name (t := t) hstep place
        rw [if_pos hdir] at henter
        simpa using henter
  · cases h

/-! ## Making directories -/

/-- Nothing but directories stands on the way down. -/
def Clear (t : FileTree) (p : Path) (ds : List String) : Prop :=
  ∀ pre, pre ≠ [] → pre <+: ds → t.node? (p ++ pre) = none ∨ t.node? (p ++ pre) = some .directory

/-- `u` is `t` with all directories on the way down. -/
structure Opened (t u : FileTree) (p : Path) (ds : List String) : Prop where
  limits : u.limits = t.limits
  workingDirectory : u.workingDirectory = t.workingDirectory
  made : ∀ pre, pre ≠ [] → pre <+: ds → u.node? (p ++ pre) = some .directory
  kept : ∀ q, (∀ pre, pre ≠ [] → pre <+: ds → q ≠ p ++ pre) → u.node? q = t.node? q

theorem admitsName_of_unlimited (h : t.limits = .unlimited) (name : String) :
    t.limits.admitsName name = true := by
  rw [h]
  rfl

theorem admitsText_of_unlimited (h : t.limits = .unlimited) {text : String}
    (hnul : Path.nul ∉ text.toList) : t.limits.admitsText text = true := by
  rw [h]
  unfold PathLimits.admitsText
  rw [Bool.and_eq_true, Bool.not_eq_true', List.contains_eq_mem, decide_eq_false_iff_not]
  exact ⟨rfl, hnul⟩

theorem makeDirectories_of_walk {pieces : List String} {place : Path}
    (h : pieces.foldlM t.enter? place = some p) (ds : List String) :
    t.makeDirectories place (pieces ++ ds) = t.makeDirectories p ds := by
  induction pieces generalizing place with
  | nil =>
    cases h
    rfl
  | cons piece pieces ih =>
    rw [List.foldlM_cons] at h
    obtain ⟨inner, he, h⟩ := Option.bind_eq_some_iff.1 h
    rw [List.cons_append, makeDirectories, he]
    exact ih h

/-- One directory deeper, on the way down from there. -/
theorem Opened.cons {v : FileTree} {d : String} {ds : List String}
    (hv : v.node? (p ++ [d]) = some .directory) (hkept : ∀ q, q ≠ p ++ [d] → v.node? q = t.node? q)
    (hlimits : v.limits = t.limits) (hworking : v.workingDirectory = t.workingDirectory)
    (h : Opened v u (p ++ [d]) ds) : Opened t u p (d :: ds) := by
  refine ⟨h.limits.trans hlimits, h.workingDirectory.trans hworking, fun pre hne hpre => ?_,
    fun q hq => ?_⟩
  · obtain ⟨e, rest, rfl⟩ := List.exists_cons_of_ne_nil hne
    obtain ⟨rfl, hrest⟩ := List.cons_prefix_cons.1 hpre
    by_cases hnil : rest = []
    · subst hnil
      rw [h.kept _ fun pre hne _ heq => ?_, hv]
      exact hne (List.self_eq_append_right.1 heq)
    · have hmade := h.made rest hnil hrest
      rwa [List.append_assoc] at hmade
  · rw [h.kept q fun pre hne hpre heq => ?_, hkept q fun heq => ?_]
    · exact hq [d] (by simp) (List.prefix_append [d] ds) heq
    · rw [List.append_assoc] at heq
      exact hq (d :: pre) (by simp) (List.cons_prefix_cons.2 ⟨rfl, hpre⟩) heq

theorem exists_makeDirectories {ds : List String} (hlimits : t.limits = .unlimited)
    (hds : ∀ d ∈ ds, IsEntry d) (hclear : t.Clear p ds) :
    ∃ u, t.makeDirectories p ds = (u, some (p ++ ds)) ∧ Opened t u p ds := by
  induction ds generalizing t p with
  | nil =>
    refine ⟨t, ?_, rfl, rfl, fun pre hne hpre => ?_, fun q _ => rfl⟩
    · rw [List.append_nil]
      rfl
    · exact absurd (List.prefix_nil.1 hpre) hne
  | cons d ds ih =>
    have hentry : IsEntry d := hds d List.mem_cons_self
    have hrest : ∀ e ∈ ds, IsEntry e := fun e he => hds e (List.mem_cons_of_mem _ he)
    have hdeep : ∀ pre, pre ≠ [] → pre <+: ds →
        t.node? (p ++ [d] ++ pre) = none ∨ t.node? (p ++ [d] ++ pre) = some .directory := by
      intro pre _ hpre
      rw [List.append_assoc]
      exact hclear (d :: pre) (by simp) (List.cons_prefix_cons.2 ⟨rfl, hpre⟩)
    rcases hclear [d] (by simp) (List.prefix_append [d] ds) with hnone | hdir
    · -- the directory is missing, and is made
      have hne : p ++ [d] ≠ [] := by simp
      have henter : t.enter? p d = none := by
        rw [enter?_of_name hentry.step, if_neg]
        rw [isDirectory_iff, hnone]
        simp
      obtain ⟨u, hu, hopened⟩ := ih (t := t.put (p ++ [d]) .directory) (p := p ++ [d]) hlimits hrest
        fun pre hpre hprefix => by
          rw [node?_put_of_ne fun heq => hpre (List.append_right_eq_self.1 heq)]
          exact hdeep pre hpre hprefix
      refine ⟨u, ?_, Opened.cons (node?_put_self hne _) (fun q hq => node?_put_of_ne hq _) rfl rfl
        hopened⟩
      rw [makeDirectories, henter]
      simp only [admitsName_of_unlimited hlimits, hnone, Option.isNone_none, Bool.and_self, if_true]
      rw [hu, List.append_assoc]
      rfl
    · have henter : t.enter? p d = some (p ++ [d]) := by
        rw [enter?_of_name hentry.step, if_pos (isDirectory_iff.2 hdir)]
      obtain ⟨u, hu, hopened⟩ := ih hlimits hrest hdeep
      refine ⟨u, ?_, Opened.cons hdir (fun q _ => rfl) rfl rfl hopened⟩
      rw [makeDirectories, henter]
      simp only
      rw [hu, List.append_assoc]
      rfl

/-! ## Files by their texts -/

/-- The text leads to the directory at `p`, then down through `ds`, and names `file` there. -/
structure LeadsTo (t : FileTree) (text : String) (p : Path) (ds : List String) (file : String) :
    Prop where
  nul : Path.nul ∉ text.toList
  parents : ∃ pieces, Path.parents text = pieces ++ ds ∧
    pieces.foldlM t.enter? (Path.start t.workingDirectory text) = some p
  last : Path.lastPiece text = file
  entries : ∀ d ∈ ds, IsEntry d
  entry : IsEntry file

section LeadsTo

variable {text : String} {ds : List String} {file : String}

theorem LeadsTo.locate?_eq (h : t.LeadsTo text p ds file) (hlimits : t.limits = .unlimited) :
    t.locate? text = (ds.foldlM t.enter? p).map (· ++ [file]) := by
  obtain ⟨pieces, hparents, hwalk⟩ := h.parents
  unfold locate?
  rw [if_pos (admitsText_of_unlimited hlimits h.nul), hparents, List.foldlM_append, hwalk, h.last]
  simp only [h.entry.step, Bool.false_eq_true, if_false]
  exact Option.map_eq_bind.symm

/-- The file of a text, if the directories above it are there. -/
theorem LeadsTo.find?_eq (h : t.LeadsTo text p ds file) (hlimits : t.limits = .unlimited)
    (hdirs : ∀ pre, pre ≠ [] → pre <+: ds → t.node? (p ++ pre) = some .directory) :
    t.find? text = t.node? (p ++ ds ++ [file]) := by
  unfold find?
  rw [h.locate?_eq hlimits, walk_of_directories h.entries hdirs]
  rfl

theorem LeadsTo.find?_eq_none (h : t.LeadsTo text p ds file) (hlimits : t.limits = .unlimited)
    (hnone : t.node? (p ++ ds ++ [file]) = none) : t.find? text = none := by
  unfold find?
  rw [h.locate?_eq hlimits]
  cases hwalk : ds.foldlM t.enter? p with
  | none => rfl
  | some place =>
    rw [eq_append_of_walk h.entries hwalk]
    exact hnone

/-- `u` is `t` with a file in its place and the directories above it. -/
structure Written (t u : FileTree) (p : Path) (ds : List String) (file : String)
    (content : FileContent) : Prop where
  limits : u.limits = t.limits
  workingDirectory : u.workingDirectory = t.workingDirectory
  content : u.node? (p ++ ds ++ [file]) = some (.file content)
  made : ∀ pre, pre ≠ [] → pre <+: ds → u.node? (p ++ pre) = some .directory
  kept : ∀ q, q ≠ p ++ ds ++ [file] → (∀ pre, pre ≠ [] → pre <+: ds → q ≠ p ++ pre) →
    u.node? q = t.node? q

/-- A file stands deeper than the directories above it. -/
theorem file_ne_directory {pre : List String} (h : pre <+: ds) : p ++ ds ++ [file] ≠ p ++ pre := by
  intro heq
  have hlength := congrArg List.length heq
  have hle := h.length_le
  simp only [List.length_append, List.length_singleton] at hlength
  omega

theorem LeadsTo.exists_write (h : t.LeadsTo text p ds file) (hlimits : t.limits = .unlimited)
    (hclear : t.Clear p ds) (hplace : t.node? (p ++ ds ++ [file]) ≠ some .directory)
    (content : FileContent) :
    ∃ u, t.write text content = (u, .ok ()) ∧ Written t u p ds file content := by
  obtain ⟨pieces, hparents, hwalk⟩ := h.parents
  obtain ⟨v, hv, hopened⟩ := exists_makeDirectories hlimits h.entries hclear
  have hvlimits : v.limits = .unlimited := hopened.limits.trans hlimits
  have hparent : t.limits.admitsText (Path.parentText text) = true :=
    admitsText_of_unlimited hlimits (Path.nul_not_mem_parentText h.nul)
  have hfree : v.isDirectory (p ++ ds ++ [file]) = false := by
    rw [Bool.eq_false_iff, Ne, isDirectory_iff,
      hopened.kept _ fun pre _ hpre => file_ne_directory hpre]
    exact hplace
  have hput : v.putFile? (p ++ ds) file content =
      some (v.put (p ++ ds ++ [file]) (.file content)) := by
    unfold putFile?
    simp only [h.entry.step, admitsName_of_unlimited hvlimits, hfree, Bool.not_true, Bool.or_self,
      Bool.false_eq_true, if_false]
  refine ⟨v.put (p ++ ds ++ [file]) (.file content), ?_, hopened.limits, hopened.workingDirectory,
    node?_put_self (by simp) _, fun pre hne hpre => ?_, fun q hq hdirs => ?_⟩
  · unfold write
    rw [if_pos hparent, hparents, makeDirectories_of_walk hwalk, hv]
    simp only [admitsText_of_unlimited hvlimits h.nul, if_true, h.last, hput]
  · rw [node?_put_of_ne (file_ne_directory hpre).symm]
    exact hopened.made pre hne hpre
  · rw [node?_put_of_ne hq, hopened.kept q hdirs]

/-- A file is not written over a directory, so all of them stay. -/
theorem Written.extends {content : FileContent} (h : Written t u p ds file content)
    (hplace : t.node? (p ++ ds ++ [file]) ≠ some .directory) : t.Extends u := by
  refine ⟨h.limits, h.workingDirectory, fun q hq => ?_⟩
  rw [isDirectory_iff] at hq ⊢
  by_cases hdir : ∃ pre, pre ≠ [] ∧ pre <+: ds ∧ q = p ++ pre
  · obtain ⟨pre, hne, hpre, rfl⟩ := hdir
    exact h.made pre hne hpre
  · rw [h.kept q ?_ ?_, hq]
    · rintro rfl
      exact hplace hq
    · exact fun pre hne hpre heq => hdir ⟨pre, hne, hpre, heq⟩

end LeadsTo

end TradeWatch.FileTree
