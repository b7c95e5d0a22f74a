import Ancestry.Proofs.Commits.Bare
import Ancestry.Proofs.Repository.Abbreviations
import Ancestry.Proofs.Repository.Meaning
import Ancestry.Proofs.Revision.Arguments

/-!
# Repositories of bare commits

Commits that are told by their parents and times are put into the files of a repository that
has nothing else. Its objects are the source of these commits. It has no references, so that the
digits of an identifier mean it.
-/

namespace Ancestry

namespace Log

/-- A repository of commits that are told by their parents and times. -/
def bare (commits : List (ObjectId × List ObjectId × Nat)) : Repository where
  root := ⟨"/"⟩
  files :=
    commits.foldl
      (fun files (id, parents, time) =>
        (files.insert [id.loosePath.1, "objects", ".git"] .directory).insert
          [id.loosePath.2, id.loosePath.1, "objects", ".git"]
          (.file (Zlib.pack (Object.frame ⟨.commit, Source.barePayload parents time⟩))))
      ((({} : FileSystem).insert [".git"] .directory).insert ["objects", ".git"] .directory)

/-- Commits that are put into files one after the other are kept as in a memory. -/
theorem bare_mirrors {commits : List (ObjectId × List ObjectId × Nat)} {stem : String}
    {root : Location} {memory : MemoryStore} {files : FileSystem}
    (mirrors : LooseStore.Mirrors stem root memory files)
    (distinct : (commits.map Prod.fst).Nodup)
    (absent : ∀ id ∈ commits.map Prod.fst, memory.contains id = false) :
    ∃ last, LooseStore.Mirrors stem root last (commits.foldl
        (fun files (id, parents, time) =>
          (files.insert (id.loosePath.1 :: root) .directory).insert
            (id.loosePath.2 :: id.loosePath.1 :: root)
            (.file (Zlib.pack (Object.frame ⟨.commit, Source.barePayload parents time⟩)))) files) ∧
      ∀ id : ObjectId, last.forms[id]? = memory.forms[id]?.or ((commits.lookup id).map
        fun (parents, time) => Object.frame ⟨.commit, Source.barePayload parents time⟩) := by
  induction commits generalizing memory files with
  | nil => exact ⟨memory, mirrors, fun id => Option.or_none.symm⟩
  | cons commit commits inductionHypothesis =>
    obtain ⟨id, parents, time⟩ := commit
    obtain ⟨free, others⟩ := List.forall_mem_cons.mp absent
    obtain ⟨apart, distinct⟩ := List.nodup_cons.mp distinct
    obtain ⟨last, mirrored, forms⟩ := inductionHypothesis
      (mirrors.put free (Zlib.unpack?_pack _)) distinct
      fun other member => by
        refine Bool.eq_false_iff.mpr fun held => ?_
        rcases (LooseStore.contains_insert memory id other _).mp held with rfl | held
        · exact apart member
        · rw [others other member] at held
          cases held
    refine ⟨last, mirrored, fun other => ?_⟩
    rw [forms, LooseStore.getElem?_memory, List.lookup_cons]
    by_cases same : id = other
    · subst same
      have nothing : memory.forms[id]? = none := by
        rw [LooseStore.contains_iff, Option.isSome_eq_false_iff, Option.isNone_iff_eq_none] at free
        exact free
      simp [free, nothing]
    · have differs : (other == id) = false := by simpa using Ne.symm same
      simp [same, differs]

/-- The source of such a repository gives the commits that it was made of. -/
theorem bare_source {commits : List (ObjectId × List ObjectId × Nat)}
    (distinct : (commits.map Prod.fst).Nodup)
    (sized : ∀ id parents time, (id, parents, time) ∈ commits →
      (Source.barePayload parents time).length ≤ Text.wordMax) :
    (bare commits).source = Source.bare commits := by
  have directory : (bare commits).objectsPath = ⟨"/.git/objects"⟩ := by
    change Path.join (Path.join ⟨"/"⟩ ".git") "objects" = _
    decide
  have site : LooseStore.Site ⟨"/.git/objects"⟩ "/.git/objects" := by
    refine ⟨fun next relative => ?_, by decide, by decide⟩
    rw [Path.join, relative, if_neg (by decide), if_neg (by decide)]
    rfl
  have clear : LooseStore.Clear ⟨"/.git/objects"⟩
      ((({} : FileSystem).insert [".git"] .directory).insert ["objects", ".git"] .directory)
      ["objects", ".git"] := by
    refine ⟨by decide, ?_, fun name names => ?_⟩
    · rw [FileSystem.entry?_insert, if_pos rfl]
    · have deep (place : Location) (few : place.length ≤ 2) :
          name :: names ++ ["objects", ".git"] ≠ place := fun same => by
        have lengths := congrArg List.length same
        simp only [List.cons_append, List.length_cons, List.length_append,
          List.length_nil] at lengths
        omega
      rw [FileSystem.entry?_insert, if_neg (deep _ (by simp)), FileSystem.entry?_insert,
        if_neg (deep _ (by simp))]
      exact Std.TreeMap.getElem?_emptyc
  obtain ⟨memory, mirrors, forms⟩ := bare_mirrors (clear.mirrors (.inl rfl)) distinct
    fun id _ => MemoryStore.contains_empty id
  have kept : (bare commits).source = memory.source := by
    rw [Repository.source, directory]
    exact mirrors.source site
  refine kept.trans (congrArg Source.mk (funext fun id => ?_))
  rw [MemoryStore.read, forms, MemoryStore.getElem?_empty, Option.none_or]
  cases found : commits.lookup id with
  | none => rfl
  | some commit =>
    obtain ⟨parents, time⟩ := commit
    obtain ⟨before, after, whole, _⟩ := List.lookup_eq_some_iff.mp found
    have short := sized id parents time (by rw [whole]; simp)
    simp only [Option.map_some, Source.ofStored,
      Object.ofFrame_frame ⟨.commit, Source.barePayload parents time⟩ short]
    rfl

section names

open FileSystem (Standing)

variable {commits : List (ObjectId × List ObjectId × Nat)} {id : ObjectId}

/-- Commits are kept deep below the data directory. -/
theorem entry?_bare {place : Location} (shallow : place.length ≤ 2) :
    FileSystem.entry? (bare commits).files place =
      FileSystem.entry? ((({} : FileSystem).insert [".git"] .directory).insert
        ["objects", ".git"] .directory) place := by
  rw [bare]
  generalize (({} : FileSystem).insert [".git"] .directory).insert ["objects", ".git"] .directory =
    files
  dsimp only
  induction commits generalizing files with
  | nil => rfl
  | cons commit commits inductionHypothesis =>
    have apart {deep : Location} (long : 2 < deep.length) : place ≠ deep := by
      rintro rfl
      omega
    rw [List.foldl_cons, inductionHypothesis, FileSystem.entry?_insert, if_neg (apart (by simp)),
      FileSystem.entry?_insert, if_neg (apart (by simp))]

/-- The data directory is found, and there are no references in it. -/
theorem bare_standing (commits : List (ObjectId × List ObjectId × Nat)) :
    Standing (bare commits).files "/.git" [".git"] ∧
      ∀ more, (bare commits).files.follow [] ("" :: ".git" :: "refs" :: more) =
        .error .absent := by
  have stands : FileSystem.entry? (bare commits).files [".git"] = some .directory := by
    rw [entry?_bare (by simp)]
    rfl
  have vacant : FileSystem.entry? (bare commits).files ["refs", ".git"] = none := by
    rw [entry?_bare (by simp)]
    rfl
  have led (more : List String) : (bare commits).files.follow [] ("" :: ".git" :: more) =
      (bare commits).files.follow [".git"] more := by
    have isName : Path.IsName ".git" := ⟨by decide, by decide, by decide, by decide⟩
    have root : FileSystem.entry? (bare commits).files [] = some .directory := rfl
    refine (FileSystem.follow_name isName (by decide) root more).trans ?_
    rw [stands]
    rfl
  constructor
  · have pieces : Path.pieces ⟨"/.git"⟩ = ["", ".git"] := by decide
    refine ⟨?_, stands⟩
    rw [pieces, led]
    rfl
  · intro more
    have isName : Path.IsName "refs" := ⟨by decide, by decide, by decide, by decide⟩
    rw [led, FileSystem.follow_name isName (by decide) stands, vacant]
    rfl

/-- The digits of an identifier may follow a path that is not too long. -/
theorem fits_toHex {stem : String} (clean : '\x00' ∉ stem.toList) (short : Utf8.size stem ≤ 4000)
    (id : ObjectId) : FileSystem.Fits stem id.toHex := by
  refine ⟨⟨clean, fun zero => ?_⟩, ?_⟩
  · rw [ObjectId.toList_toHex] at zero
    exact (ObjectId.of_mem_hexChars zero).2.2.2.2 rfl
  · rw [id.size_toHex, FileSystem.pathBound]
    omega

/-- Nothing stands under the digits of an identifier in the data directory. -/
theorem find_data (commits : List (ObjectId × List ObjectId × Nat)) (id : ObjectId) :
    (bare commits).files.find (Path.below "/.git" id.toHex) = .error .absent := by
  have other : id.toHex ≠ "objects" := fun same => by
    have length := id.length_hexChars
    simp [← ObjectId.toList_toHex, same] at length
  have vacant : FileSystem.entry? (bare commits).files [id.toHex, ".git"] = none := by
    rw [entry?_bare (by simp), FileSystem.entry?_insert, if_neg (by simp [other]),
      FileSystem.entry?_insert, if_neg (by simp)]
    exact Std.TreeMap.getElem?_emptyc
  have short : Utf8.size id.toHex ≤ FileSystem.nameBound := by
    rw [id.size_toHex]
    decide
  rw [(bare_standing commits).1.find_group
    ⟨id.isName_toHex, short, fits_toHex (by decide) (by decide) id⟩, vacant]
  rfl

/-- The digits of an identifier are no reference. -/
theorem bare_unreferenced (commits : List (ObjectId × List ObjectId × Nat)) (id : ObjectId) :
    (bare commits).Unreferenced id.toHex := by
  have missing := (bare_standing commits).2
  have relative : Path.isAbsolute ⟨id.toHex⟩ = false := id.isName_toHex.relative
  have unfound {path : Path} (absent : (bare commits).files.find path = .error .absent) :
      (bare commits).files.hasFile path = false := by
    rw [FileSystem.hasFile, FileSystem.lookup?, absent]
  have data : (bare commits).dataPath = ⟨"/.git"⟩ := by
    change Path.join ⟨"/"⟩ ".git" = _
    decide
  have refs : RefFiles.refsPath ⟨"/.git"⟩ = ⟨"/.git/refs"⟩ := by decide
  have branches : RefFiles.branchesPath ⟨"/.git"⟩ = ⟨"/.git/refs/heads"⟩ := by decide
  have refsPieces : Path.pieces ⟨"/.git/refs"⟩ = ["", ".git", "refs"] := by decide
  have branchesPieces : Path.pieces ⟨"/.git/refs/heads"⟩ = ["", ".git", "refs", "heads"] := by
    decide
  rw [Repository.Unreferenced, data, refs, branches]
  intro directory member
  simp only [List.mem_cons, List.not_mem_nil, or_false] at member
  rcases member with rfl | rfl | rfl
  all_goals
    rw [Path.join_filled (by decide) (by decide) relative]
    apply unfound
  · exact find_data commits id
  · exact FileSystem.find_below_missing (by rw [refsPieces, missing])
      (fits_toHex (by decide) (by decide) id)
  · exact FileSystem.find_below_missing (by rw [branchesPieces, missing])
      (fits_toHex (by decide) (by decide) id)

/-- The digits of an identifier mean it, whatever the commits are. -/
theorem bare_means {branch : BranchName} (digits : branch.text = id.toHex) :
    (bare commits).meaning (.name branch) = .ok id :=
  (bare_unreferenced commits id).resolveName_toHex digits

/-- The digits of an identifier are read as a name. -/
theorem parse_digits {branch : BranchName} (digits : branch.text = id.toHex) :
    Revision.parse branch.text = .ok (.name branch) := by
  have chars : branch.text.toList = id.hexChars := by rw [digits, ObjectId.toList_toHex]
  have filled : branch.text.toList ≠ [] := fun none => by
    have length := id.length_hexChars
    simp [← chars, none] at length
  refine Revision.parse_of_isHex filled fun c member => ?_
  rw [chars] at member
  exact ObjectId.isHex_of_mem_hexChars member

/-- The digits of two identifiers with two dots between them are a range. -/
theorem parse_digits_range {older newer : BranchName} {first second : ObjectId}
    (olderDigits : older.text = first.toHex) (newerDigits : newer.text = second.toHex) :
    RevisionArg.parse (older.text ++ ".." ++ newer.text) =
      .ok (.range (.name older) (.name newer)) := by
  have closed : older.text.toList.getLast? ≠ some '.' := by
    intro dot
    have member := List.mem_of_getLast? dot
    rw [olderDigits, ObjectId.toList_toHex] at member
    exact (BranchName.plain_of_isHex (ObjectId.isHex_of_mem_hexChars member)).2 (by decide)
  exact RevisionArg.parse_range (parse_digits olderDigits) closed
    (RevisionArg.parseSide_of_parse (parse_digits newerDigits))

end names

end Log

end Ancestry
