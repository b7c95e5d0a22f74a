import Ancestry.Proofs.FileSystem.Parents
import Ancestry.Proofs.FileSystem.Spares
import Ancestry.Proofs.Reference.Values

/-!
# What writing a reference file changes

A reference file is written through a spare file in its directory, whose name is drawn. Where
nothing stands under that name, the text is found under its path afterwards, and whatever else was
there is there as it was. A write that fails makes directories at most, or leaves the spare file
behind. A file that is there can be written if there is room for the path of the spare file.
-/

namespace Ancestry.RefFiles

open FileSystem

variable {files after : FileSystem} {path other : Path} {text : String} {draw : UInt32}
  {name : String} {here : Location} {failure : Failure}

/-- The name of a spare file may stand in a directory. -/
theorem isName_spareName (draw : UInt32) : Path.IsName (spareName draw) :=
  FileSystem.isName_spareName (by decide) ⟨'t', by decide, by decide⟩

/-- The name of a spare file is short. -/
theorem size_spareName (draw : UInt32) : Utf8.size (spareName draw) ≤ 18 :=
  FileSystem.size_spareName "tmp-ref-" draw

/-- Nothing stands under the name that is drawn for a spare file, once the directories of the path
are made. -/
def Spared (files : FileSystem) (path : Path) (draw : UInt32) : Prop :=
  ∀ parent ∈ path.parent?,
    (files.createDirectories parent).2.has (sparePath parent draw) = false

instance : Decidable (Spared files path draw) :=
  inferInstanceAs (Decidable (∀ parent ∈ path.parent?, _))

/-- The path of the spare file is not too long. -/
def Roomy (path : Path) (draw : UInt32) : Prop :=
  ∀ parent ∈ path.parent?, Utf8.size (sparePath parent draw).text ≤ pathBound

instance : Decidable (Roomy path draw) :=
  inferInstanceAs (Decidable (∀ parent ∈ path.parent?, _))

/-- What is written is found where it was put, and whatever else was there is there as it was;
nothing else is new but directories. -/
structure Wrote (files : FileSystem) (path : Path) (text : String) (after : FileSystem)
    (name : String) (here : Location) : Prop where
  found : after.find path = .ok (name :: here)
  stands : after.entry? (name :: here) = some (.file (Utf8.encode text))
  free : files.entry? (name :: here) ≠ some .directory
  others : ∀ place, place ≠ name :: here → after.entry? place = files.entry? place ∨
    files.entry? place = none ∧ after.entry? place = some .directory
  closed : Closed files → Closed after

/-- The places that a write may change but for its directories: that of the path when it succeeds,
and that of the spare file. -/
def Touched (path : Path) (draw : UInt32) (given : Except Failure Unit) (after : FileSystem)
    (place : Location) : Prop :=
  given = .ok () ∧ after.find path = .ok place ∨
    ∃ parent ∈ path.parent?, after.filePlace (sparePath parent draw) = .ok place

/-- Files that are changed by a write once its directories are made, whether it succeeds or fails
and whatever stands where the spare file is put. -/
structure Stirs (made : FileSystem) (path : Path) (text : String) (draw : UInt32)
    (given : Except Failure Unit) (after : FileSystem) : Prop where
  directories : SameDirectories made after
  closed : Closed made → Closed after
  entries : ∀ place, ¬ Touched path draw given after place →
    after.entry? place = made.entry? place
  stood : ∀ place bytes, after.entry? place = some (.file bytes) →
    bytes = Utf8.encode text ∨ made.entry? place = some (.file bytes)
  put : given = .ok () → ∃ place, after.find path = .ok place ∧
    after.entry? place = some (.file (Utf8.encode text))

/-- A directory that its path leads to stays there. -/
theorem Stirs.standing {made : FileSystem} {given : Except Failure Unit} {stem : String}
    {root : Location} (stirs : Stirs made path text draw given after)
    (standing : Standing made stem root) : Standing after stem root :=
  ⟨stirs.directories.follow standing.led standing.stands,
    (stirs.directories root).mp standing.stands⟩

/-- A write makes directories, and fails then or places the file through a spare one. Where a
directory cannot be made, the file is not there: the directories of a file are. -/
theorem of_write {given : Except Failure Unit}
    (written : write files path text draw = (given, after)) :
    (∃ failure, given = .error failure ∧ Furnished files after ∧
      (Closed files → after.hasFile path = false)) ∨
      ∃ parent made outcome, path.parent? = some parent ∧
        files.createDirectories parent = (.ok (), made) ∧ Furnished files made ∧
        Placed made (sparePath parent draw) path (Utf8.encode text) outcome after ∧
        (given = .ok () ↔ outcome = .ok ()) := by
  rw [write] at written
  split at written
  · rename_i up
    obtain ⟨rfl, rfl⟩ := Prod.mk.inj written
    refine .inl ⟨_, rfl, .refl files, fun closed => Bool.eq_false_iff.mpr fun present => ?_⟩
    obtain ⟨parent, _, same, _⟩ := parent_of_file closed present
    rw [up] at same
    cases same
  · rename_i parent up
    have furnished := createDirectories_furnished files parent
    split at written
    · rename_i fault made created
      rw [created] at furnished
      obtain ⟨rfl, rfl⟩ := Prod.mk.inj written
      refine .inl ⟨_, rfl, furnished, fun closed => Bool.eq_false_iff.mpr fun present => ?_⟩
      obtain ⟨other, _, same, _, there⟩ := parent_of_file (furnished.closed closed) present
      obtain rfl := Option.some.inj (same.symm.trans up)
      rcases there with empty | standing
      · rw [show other = ⟨""⟩ from congrArg Path.mk empty, createDirectories_empty] at created
        cases created
      · rw [missing_of_createDirectories created] at standing
        cases standing
    · rename_i made created
      rw [created] at furnished
      have placed := placed_placeFile made (sparePath parent draw) path (Utf8.encode text)
      right
      split at written <;> rename_i result <;> rw [result] at placed <;>
        obtain ⟨rfl, rfl⟩ := Prod.mk.inj written
      · exact ⟨parent, made, _, up, created, furnished, placed, by simp⟩
      · exact ⟨parent, made, _, up, created, furnished, placed, by simp⟩
      · exact ⟨parent, made, _, up, created, furnished, placed, by simp⟩

/-- A successful write puts the text in its place, where nothing stood under the name of the spare
file: then nothing is lost when that is written over and moved. -/
theorem wrote_of_write (spared : Spared files path draw)
    (written : write files path text draw = (.ok (), after)) :
    ∃ name here, Wrote files path text after name here := by
  rcases of_write written with ⟨failure, failed, _⟩ | ⟨parent, made, outcome, up, created,
    furnished, placed, same⟩
  · cases failed
  · obtain rfl := same.mp rfl
    have absent := spared parent up
    rw [created] at absent
    obtain ⟨target, targeted, found, stands⟩ := placed.found
    have closed := placed.closed
    cases placed with
    | moved place other _ opened placed entries =>
      obtain rfl := Except.ok.inj (placed.symm.trans targeted)
      obtain ⟨name, here, rfl, _, free⟩ := of_filePlace placed
      have vacant := vacant_of_has opened absent
      refine ⟨name, here, found, stands, fun stood => free ?_, fun other apart => ?_,
        closed ∘ furnished.closed⟩
      · exact (furnished.covers _ (by rw [stood]; rfl)).2.mpr stood
      · rw [entries, if_neg apart]
        split
        · rename_i spare
          rw [← spare] at vacant
          rcases furnished.entries other with kept | ⟨_, added⟩
          · exact .inl (vacant.symm.trans kept)
          · rw [vacant] at added
            cases added
        · exact furnished.entries other

/-- A write changes files in two places at most, besides making directories. -/
theorem stirs_of_write {given : Except Failure Unit}
    (written : write files path text draw = (given, after)) :
    ∃ made, Furnished files made ∧ Stirs made path text draw given after := by
  rcases of_write written with ⟨failure, rfl, furnished, _⟩ | ⟨parent, made, outcome, up, created,
    furnished, placed, same⟩
  · exact ⟨after, furnished, fun _ => Iff.rfl, id, fun _ _ => rfl, fun _ _ => .inr,
      fun done => nomatch done⟩
  · have directories := placed.sameDirectories
    have found (done : given = .ok ()) : ∃ target, made.filePlace path = .ok target ∧
        after.find path = .ok target ∧
        after.entry? target = some (.file (Utf8.encode text)) := by
      obtain rfl := same.mp done
      exact placed.found
    refine ⟨made, furnished, directories, placed.closed, fun place untouched => ?_,
      fun _ _ => placed.stood, fun done => (found done).imp fun _ => And.right⟩
    rw [Touched, not_or, not_and] at untouched
    obtain ⟨apart, elsewhere⟩ := untouched
    refine placed.entries (fun done there => ?_) fun opened => ?_
    · obtain ⟨target, targeted, reached, _⟩ := found (same.mpr done)
      obtain rfl := Except.ok.inj (there.symm.trans targeted)
      exact apart (same.mpr done) reached
    · exact elsewhere ⟨parent, up, directories.filePlace opened⟩

/-- The path of a spare file beside a file that is there is in order, if there is room for it. -/
theorem sound_sparePath {parent : Path} {tail : String} (sound : textFault? path = none)
    (whole : path.text = parent.text ++ tail)
    (room : Utf8.size (sparePath parent draw).text ≤ pathBound) :
    textFault? (sparePath parent draw) = none := by
  have isName := isName_spareName draw
  have clean : '\x00' ∉ parent.text.toList := by
    rw [textFault?] at sound
    split at sound
    · cases sound
    · rename_i clean
      intro member
      refine clean (List.contains_iff_mem.mpr ?_)
      rw [whole, String.toList_append]
      exact List.mem_append_left _ member
  have plain : '\x00' ∉ (spareName draw).toList := by
    intro member
    rcases of_mem_spareName member with front | digit
    · exact absurd front (by decide)
    · exact absurd digit (by decide)
  have filled : (spareName draw).toList ≠ [] := fun nothing =>
    isName.filled (String.toList_eq_nil_iff.mp nothing)
  obtain ⟨between, slash, text⟩ : ∃ between : String, '\x00' ∉ between.toList ∧
      (sparePath parent draw).text = parent.text ++ between ++ spareName draw := by
    rw [sparePath, Path.join, isName.relative, if_neg (by decide)]
    split
    · exact ⟨"", by decide, by rw [String.append_empty]⟩
    · exact ⟨"/", by decide, rfl⟩
  rw [textFault?, if_neg, if_neg, if_neg (Nat.not_lt.mpr room)]
  · intro empty
    rw [text, ← String.toList_eq_nil_iff] at empty
    simp [filled] at empty
  · rw [text]
    simp [clean, slash, plain]

/-- Beside a file that is there the spare file has a place, if nothing stands there and there is
room for its path. -/
theorem spare_place {parent : Path} (closed : Closed files) (present : files.hasFile path = true)
    (up : path.parent? = some parent) (absent : files.has (sparePath parent draw) = false)
    (room : Roomy path draw) : ∃ place, files.filePlace (sparePath parent draw) = .ok place := by
  obtain ⟨_, _, found, _⟩ := hasFile_iff.mp present
  obtain ⟨other, _, same, whole, _⟩ := parent_of_file closed present
  obtain rfl := Option.some.inj (same.symm.trans up)
  have short := size_spareName draw
  have bound : nameBound = 255 := rfl
  exact filePlace_beside closed present up (isName_spareName draw) (by omega)
    (sound_sparePath (find_iff.mp found).1 whole (room other up)) absent

/-- A write that fails makes directories at most, or leaves the spare file behind since the file has
no place. In the first case the file is not there afterwards, unless there was no place for the
spare file. -/
theorem of_failed_write (failed : write files path text draw = (.error failure, after)) :
    (Furnished files after ∧ (Closed files → Spared files path draw → Roomy path draw →
      after.hasFile path = false)) ∨
      ∃ parent name here, path.parent? = some parent ∧
        Wrote files (sparePath parent draw) text after name here ∧
        (∀ target, after.filePlace path ≠ .ok target) ∧
        (Spared files path draw → files.entry? (name :: here) = none) := by
  rcases of_write failed with ⟨_, _, furnished, missing⟩ | ⟨parent, made, outcome, up, created,
    furnished, placed, same⟩
  · exact .inl ⟨furnished, fun closed _ _ => missing closed⟩
  · have directories := placed.sameDirectories
    have closed := placed.closed
    cases placed with
    | unopened fault refused =>
      refine .inl ⟨furnished, fun closed spared room => Bool.eq_false_iff.mpr fun present => ?_⟩
      have absent := spared parent up
      rw [created] at absent
      obtain ⟨place, opened⟩ :=
        spare_place (furnished.closed closed) present up absent room
      rw [refused] at opened
      cases opened
    | moved => exact nomatch same.mpr rfl
    | unmoved fault place opened refused =>
      obtain ⟨name, here, rfl, _, free⟩ := of_filePlace opened
      have stands : FileSystem.entry? (made.insert (name :: here) (.file (Utf8.encode text)))
          (name :: here) = some (.file (Utf8.encode text)) := by
        rw [entry?_insert, if_pos rfl]
      have found := find_of_filePlace (directories.filePlace opened) (by rw [stands]; rfl)
      refine .inr ⟨parent, name, here, up, ⟨found, stands, fun stood => free ?_,
        fun other apart => ?_, closed ∘ furnished.closed⟩,
        fun target placed => refused target (directories.symm.filePlace placed),
        fun spared => ?_⟩
      · exact (furnished.covers _ (by rw [stood]; rfl)).2.mpr stood
      · rw [entry?_insert, if_neg apart]
        exact furnished.entries other
      · have absent := spared parent up
        rw [created] at absent
        rcases furnished.entries (name :: here) with kept | ⟨vacant, _⟩
        · exact kept.symm.trans (vacant_of_has opened absent)
        · exact vacant

/-- A file that is there can be written again: its directory is there, and beside it there is a
place for the spare file. -/
theorem write_there (closed : Closed files) (present : files.hasFile path = true)
    (spared : Spared files path draw) (room : Roomy path draw) (text : String) :
    (write files path text draw).1 = .ok () := by
  obtain ⟨place, bytes, found, stands⟩ := hasFile_iff.mp present
  obtain ⟨parent, tail, up, _⟩ := parent_of_file closed present
  have created := createDirectories_parent closed present up
  have absent := spared parent up
  rw [created] at absent
  obtain ⟨spare, opened⟩ := spare_place closed present up absent room
  obtain ⟨written, placed⟩ :=
    placeFile_ok opened (filePlace_there closed found stands) (Utf8.encode text)
  rw [write, up]
  simp only
  rw [created]
  simp only
  rw [placed]

/-- What stood stands after writing, but where the file was written. -/
theorem Wrote.covers {name : String} {here : Location}
    (wrote : Wrote files path text after name here) : Covers files after := by
  intro place present
  by_cases same : place = name :: here
  · subst same
    rw [wrote.stands]
    exact ⟨rfl, iff_of_false (fun other => nomatch other) wrote.free⟩
  · rcases wrote.others place same with kept | ⟨vacant, _⟩
    · rw [kept]
      exact ⟨present, Iff.rfl⟩
    · rw [vacant] at present
      cases present

/-- The files are the same, up to the one that was written. -/
theorem Wrote.file_iff {name : String} {here place : Location} {bytes : Bytes}
    (wrote : Wrote files path text after name here) (apart : place ≠ name :: here) :
    after.entry? place = some (.file bytes) ↔ files.entry? place = some (.file bytes) := by
  rcases wrote.others place apart with same | ⟨vacant, added⟩
  · rw [same]
  · rw [vacant, added]
    exact iff_of_false (fun other => nomatch other) (fun other => nomatch other)

/-- A file that was there is there after a write, with its text or with what was written. -/
theorem Wrote.kept {name : String} {here : Location} (wrote : Wrote files path text after name here)
    (present : files.hasFile other = true) : after.hasFile other = true ∧
      (after.readText other = files.readText other ∨ after.readText other = .ok text) := by
  obtain ⟨place, bytes, found, stands⟩ := hasFile_iff.mp present
  have stays := wrote.covers.find found
  by_cases same : place = name :: here
  · obtain ⟨there, read⟩ := readText_of_find (same ▸ stays) wrote.stands
    exact ⟨there, .inr read⟩
  · have kept := (wrote.file_iff same).mpr stands
    refine ⟨hasFile_iff.mpr ⟨place, bytes, stays, kept⟩, .inl ?_⟩
    rw [readText, FileSystem.read, stays, readText, FileSystem.read, found]
    simp only [kept, stands]

end Ancestry.RefFiles
