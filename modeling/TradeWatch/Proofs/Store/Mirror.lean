/-
A store in a directory beside a store in memory. One mirrors the other if they have the same
sources, whole tables here and files of batches there, and the same results but for the ids of
alerts. Whatever is installed, written or run keeps it so: sources and results share a directory,
and still a result is never taken for a source, nor one result for another.
-/
import TradeWatch.Proofs.Run.Simulation
import TradeWatch.Proofs.Store.Directory

namespace TradeWatch

/-- A table in batches of rows. One without rows may have no batch at all, which reads like one
batch without rows. -/
structure Batched where
  first : Table
  rest : List Table
  whole : Table
  joined : first.concat? rest = some whole

namespace DirectoryStore

/-- Puts the file of a source into the directory of the store. -/
def install (s : DirectoryStore) (name : String) (b : Batched) :
    DirectoryStore × Except Fault Unit :=
  let (files, written) :=
    s.files.write (s.fileText (name ++ tableExtension)) (.batches b.first b.rest)
  ({ s with files := files }, written)

variable {s : DirectoryStore} {p : Path} {m : MemoryStore}

/-- The store in the directory at `p` has the sources and the results of `m`. -/
structure Mirrors (s : DirectoryStore) (p : Path) (m : MemoryStore) : Prop where
  works : s.WorksAt p
  sources : ∀ name, Path.IsPlain name →
    s.tableAt ((TablePlace.source name).path p) = .ok (m.sources.get? name)
  results : ∀ key : OutputKey, key.IsPlain →
    ∃ found, s.tableAt ((TablePlace.result key).path p) = .ok found ∧
      Option.Rel (Output.SameResult key) found (m.result? key)

/-- A new store mirrors a new store. -/
theorem IsEmptyAt.mirrors (h : s.IsEmptyAt p) : s.Mirrors p .empty := by
  have hnothing : ∀ place : TablePlace, s.tableAt (place.path p) = .ok none := by
    intro place
    unfold tableAt TablePlace.path
    rw [List.append_assoc, h.nothing _ (by simp)]
  exact ⟨h.worksAt, fun name _ => hnothing _, fun key _ => ⟨none, hnothing _, .none⟩⟩

namespace Mirrors

variable (h : s.Mirrors p m)

include h

/-! ## Reading -/

theorem load?_eq {name : String} (hname : Path.IsPlain name) (columns : List String) :
    s.load? name columns = m.load? name columns := by
  unfold DirectoryStore.load? MemoryStore.load?
  rw [h.works.source?_eq hname, h.sources name hname]
  cases m.sources.get? name <;> rfl

theorem exists_result? {key : OutputKey} (hkey : key.IsPlain) :
    ∃ found, s.result? key = .ok found ∧
      Option.Rel (Output.SameResult key) found (m.result? key) := by
  rw [h.works.result?_eq hkey]
  exact h.results key hkey

/-! ## Writing -/

theorem exists_install {name : String} (hname : Path.IsPlain name) (b : Batched) :
    ∃ u, s.install name b = (u, .ok ()) ∧ u.Mirrors p (m.insert name b.whole) := by
  obtain ⟨files, hwrite, hput⟩ := h.works.exists_put (TablePlace.isPlain_source hname)
    (names_fileText h.works hname) b.joined
  refine ⟨⟨files, s.root⟩, ?_, hput.works, fun other hother => ?_, fun key hkey => ?_⟩
  · unfold install
    rw [hwrite]
  · by_cases hne : other = name
    · subst hne
      rw [hput.table]
      exact congrArg Except.ok (Dict.get?_insert_self _ _ _).symm
    · have hplace : TablePlace.source other ≠ .source name := fun heq =>
        hne (congrArg TablePlace.name heq)
      rw [hput.kept _ (TablePlace.isPlain_source hother) hplace, h.sources other hother]
      exact congrArg Except.ok (Dict.get?_insert_of_ne hne _ _).symm
  · -- results stand deeper than sources
    rw [hput.kept _ (TablePlace.isPlain_result hkey) nofun]
    exact h.results key hkey

theorem exists_write {key : OutputKey} (hkey : key.IsPlain) {t u : Table}
    (hsame : Output.SameResult key t u) :
    ∃ v, s.write key t = (v, .ok ()) ∧ v.Mirrors p (m.write key u) ∧
      v.result? key = .ok (some t) := by
  have hone : t.concat? [] = some t := rfl
  obtain ⟨files, hwrite, hput⟩ := h.works.exists_put (TablePlace.isPlain_result hkey)
    (names_outputText h.works hkey) hone
  refine ⟨⟨files, s.root⟩, ?_, ⟨hput.works, fun name hname => ?_, fun other hother => ?_⟩,
    (hput.works.result?_eq hkey).trans hput.table⟩
  · unfold DirectoryStore.write
    rw [hwrite]
  · rw [hput.kept _ (TablePlace.isPlain_source hname) nofun]
    exact h.sources name hname
  · by_cases hne : other = key
    · subst hne
      refine ⟨some t, hput.table, ?_⟩
      rw [MemoryStore.result?_write_self]
      exact .some hsame
    · rw [hput.kept _ (TablePlace.isPlain_result hother) fun heq => ?_,
        MemoryStore.result?_write_of_ne (hkey.text_ne hother hne)]
      · exact h.results other hother
      · obtain ⟨c, k, n⟩ := key
        obtain ⟨c', k', n'⟩ := other
        cases heq
        exact hne rfl

end Mirrors

/-- What a run reads and writes has plain names, so a store and its mirror stay in step. -/
theorem simulation_mirrors (p : Path) :
    Detector.Simulation fun (s : DirectoryStore) m => s.Mirrors p m where
  load := by
    intro s m h name hname columns
    have hplain : ∀ name ∈ Detector.sourceTables, Path.IsPlain name := by decide
    exact h.load?_eq (hplain name hname) columns
  write := by
    intro s m h key hkey t u hsame
    have hplain : ∀ key ∈ Output.all, OutputKey.IsPlain key := by decide
    obtain ⟨v, hwrite, hmirrors, -⟩ := h.exists_write (hplain key hkey) hsame
    change (s.write key t).1.Mirrors p _ ∧ (s.write key t).2 = _
    rw [hwrite]
    exact ⟨hmirrors, rfl⟩

end DirectoryStore

/-! ## Runs over the same sources -/

/-- Stores in memory with the same sources stay in step, whatever results they have. -/
theorem MemoryStore.simulation_sources :
    Detector.Simulation fun s m : MemoryStore =>
      ∀ name ∈ Detector.sourceTables, s.sources.get? name = m.sources.get? name where
  load := by
    intro s m h name hname columns
    change s.load? name columns = m.load? name columns
    unfold load?
    rw [h name hname]
  write := fun _ _ h _ _ _ _ _ => ⟨h, rfl⟩

theorem MemoryStore.load?_nil (m : MemoryStore) (name : String) :
    m.load? name [] = .ok (m.sources.get? name) := by
  unfold load?
  cases m.sources.get? name <;> rfl

/-- Runs at one time over the same sources report the same, in whatever directories. -/
theorem DirectoryStore.Mirrors.report_eq {s s' : DirectoryStore} {p p' : Path}
    {m m' : MemoryStore} (h : s.Mirrors p m) (h' : s'.Mirrors p' m') {d : Detector}
    (hsettled : d.Settled m) {context context' : RunContext} (htime : context.time = context'.time)
    (hsame : ∀ name ∈ Detector.sourceTables, s.load? name [] = s'.load? name []) :
    (d.run s context).result.map Report.anonymous =
      (d.run s' context').result.map Report.anonymous := by
  have hplain : ∀ name ∈ Detector.sourceTables, Path.IsPlain name := by decide
  have hsources : ∀ name ∈ Detector.sourceTables,
      m.sources.get? name = m'.sources.get? name := by
    intro name hname
    have hload := hsame name hname
    rw [h.load?_eq (hplain name hname), h'.load?_eq (hplain name hname), MemoryStore.load?_nil,
      MemoryStore.load?_nil] at hload
    exact Except.ok.inj hload
  have hsettled' : d.Settled m' := by
    refine hsettled.imp_right fun hevents => ?_
    rw [← hsources eventsTable (by decide)]
    exact hevents
  -- from the one directory to its mirror, on to the other mirror and back to its directory
  calc (d.run s context).result.map Report.anonymous
      = (d.run m context').result.map Report.anonymous :=
        ((simulation_mirrors p).run h hsettled htime).2
    _ = (d.run m' context').result.map Report.anonymous :=
        (MemoryStore.simulation_sources.run hsources hsettled' rfl).2
    _ = (d.run s' context').result.map Report.anonymous :=
        ((simulation_mirrors p').run h' hsettled' rfl).2.symm

end TradeWatch
