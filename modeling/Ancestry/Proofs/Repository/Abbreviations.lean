import Ancestry.Proofs.Revision.Grammar
import Ancestry.Proofs.Store.Filling
import Ancestry.Repository.Resolution

/-!
# Abbreviated identifiers

Four to thirty-nine digits in either case that name no reference are looked up among the objects
that a repository keeps. They mean the only commit whose identifier begins with them, and the
failures tell apart that there is none and that there are several. Objects that are no commits do
not count, and more digits of the same commit mean it too.
-/

namespace Ancestry

namespace BranchName

/-- Digits are plain characters, none of which has a place in the rules for names. -/
theorem plain_of_isHex {c : Char} (hex : ObjectId.isHex c = true) :
    (' ' < c ∧ c ≠ '\x7f' ∧ c ∉ ['*', ':', '?', '[', '\\', '~', '^']) ∧
      c ∉ ['.', '/', '@', 'k'] :=
  ObjectId.of_isHex (fun c =>
    (' ' < c ∧ c ≠ '\x7f' ∧ c ∉ ['*', ':', '?', '[', '\\', '~', '^']) ∧ c ∉ ['.', '/', '@', 'k'])
    hex (by decide)

/-- Digits name a branch. -/
theorem named_of_isHex {chars : List Char} (filled : chars ≠ [])
    (hex : ∀ c ∈ chars, ObjectId.isHex c = true) : Named chars := by
  have without {c : Char} (special : c ∈ ['.', '/', '@', 'k']) : c ∉ chars := fun member =>
    (plain_of_isHex (hex c member)).2 special
  constructor
  · exact filled
  · constructor
    · intro first
      exact without (by decide) (List.mem_of_head? first)
    · intro first
      exact without (by decide) (List.mem_of_head? first)
  · constructor
    · intro last
      exact without (by decide) (List.mem_of_getLast? last)
    · intro locked
      exact without (c := 'k') (by decide) (locked.subset (by decide))
  · refine ⟨?_, ?_, ?_⟩
    · intro hidden
      exact without (c := '.') (by decide) (hidden.subset (by decide))
    · intro dots
      exact without (c := '.') (by decide) (dots.subset (by decide))
    · intro brace
      exact without (c := '@') (by decide) (brace.subset (by decide))
  · intro c member
    exact (plain_of_isHex (hex c member)).1

end BranchName

/-- Digits are read as a name. -/
theorem Revision.parse_of_isHex {text : String} (filled : text.toList ≠ [])
    (hex : ∀ c ∈ text.toList, ObjectId.isHex c = true) :
    parse text =
      .ok (.name ⟨text, BranchName.isValid_iff.mpr (BranchName.named_of_isHex filled hex)⟩) := by
  have named := BranchName.named_of_isHex filled hex
  have written : Written text.toList text.toList [] := ⟨by simp, .inr named, by simp⟩
  refine parse_written written ?_
  rw [Means, if_neg]
  intro sign
  have digit : ObjectId.isHex '@' = true := hex '@' (by rw [sign]; decide)
  exact absurd digit (by decide)

namespace Repository

open LooseStore

variable {repository : Repository} {objects : List Object} {digits : String}
  {ids others : List ObjectId} {id : ObjectId} {graph : Graph}

section notions

/-- What a text means as a revision. -/
def meaningOf (repository : Repository) (text : String) (graph : Graph) :
    Except Failure ObjectId :=
  match Revision.parse text with
  | .error failure => .error failure
  | .ok revision => (repository.resolve revision graph).1

/-- There is no reference of the name. -/
def Unreferenced (repository : Repository) (name : String) : Prop :=
  ∀ directory ∈ [repository.dataPath, RefFiles.refsPath repository.dataPath,
      RefFiles.branchesPath repository.dataPath],
    repository.files.hasFile (directory.join name) = false

/-- Digits that may stand for a commit: not all forty, and no reference. -/
structure Abbreviates (repository : Repository) (digits : String) : Prop where
  hexadecimal : Hexadecimal digits
  least : 4 ≤ digits.length
  most : digits.length ≤ 39
  unreferenced : repository.Unreferenced digits

/-- The objects that were kept in a repository, none of them longer than can be told. -/
structure Keeps (repository : Repository) (objects : List Object) : Prop where
  filled : Filled repository.objectsPath objects repository.files
  sized : ∀ object ∈ objects, object.payload.length ≤ Text.wordMax

/-- What was kept first under the identifier is a commit, and the identifier begins with the
digits in lower case. -/
def Candidate (objects : List Object) (digits : String) (id : ObjectId) : Prop :=
  (objects.find? fun object => object.id = id).map Object.kind = some .commit ∧
    digits.toLower.toList <+: id.hexChars

/-- All candidates, in the ascending order in which they are found here. -/
structure Candidates (objects : List Object) (digits : String) (ids : List ObjectId) : Prop where
  ascending : ids.Pairwise fun first second => compare first second = .lt
  members : ∀ id, id ∈ ids ↔ Candidate objects digits id

/-- What digits mean that stand for one of these commits. -/
def decided (digits : String) : List ObjectId → Except Failure ObjectId
  | [] => .error (.fault (.unknownRevision digits))
  | [id] => .ok id
  | candidates => .error (.ofText (ambiguity digits candidates))

/-- Digits mean the same twice, up to the order in which candidates are listed when they are
ambiguous. -/
def MeansAlike (digits : String) (given other : Except Failure ObjectId) : Prop :=
  given = other ∨ ∃ ids others : List ObjectId, ids.Perm others ∧
    given = .error (.ofText (ambiguity digits ids)) ∧
      other = .error (.ofText (ambiguity digits others))

end notions

section candidates

/-- A candidate was kept. -/
theorem Candidate.kept (candidate : Candidate objects digits id) :
    ∃ object ∈ objects, object.id = id := by
  obtain ⟨first, found, _⟩ := Option.map_eq_some_iff.mp candidate.1
  exact ⟨first, List.mem_of_find?_eq_some found, by simpa using List.find?_some found⟩

/-- The same candidates are listed twice, each once. -/
theorem Candidates.perm {more : List Object} (first : Candidates objects digits ids)
    (second : Candidates more digits others)
    (same : ∀ id, Candidate more digits id ↔ Candidate objects digits id) : ids.Perm others := by
  apply (List.perm_ext_iff_of_nodup (ObjectId.nodup_of_ascending first.ascending)
    (ObjectId.nodup_of_ascending second.ascending)).mpr
  intro id
  rw [first.members, second.members, same]

/-- Lists of the same candidates decide alike. -/
theorem decided_alike (digits : String) (perm : ids.Perm others) :
    MeansAlike digits (decided digits ids) (decided digits others) := by
  match ids with
  | [] =>
    obtain rfl := List.nil_perm.mp perm
    exact .inl rfl
  | [id] =>
    obtain rfl := List.singleton_perm.mp perm
    exact .inl rfl
  | first :: second :: rest =>
    have lengths := perm.length_eq
    match others with
    | [] | [_] => simp at lengths
    | _ :: _ :: _ => exact .inr ⟨_, _, perm, rfl, rfl⟩

/-- Only a single candidate is decided for. -/
theorem Candidates.decided_iff (candidates : Candidates objects digits ids) :
    decided digits ids = .ok id ↔
      Candidate objects digits id ∧ ∀ other, Candidate objects digits other → other = id := by
  simp only [← candidates.members]
  match ids, ObjectId.nodup_of_ascending candidates.ascending with
  | [], _ => simp [decided]
  | [single], _ => simp [decided, eq_comm]
  | first :: second :: rest, distinct =>
    have apart : first ≠ second := by
      rintro rfl
      simp at distinct
    constructor
    · intro found
      cases found
    · rintro ⟨_, only⟩
      exact absurd ((only first (by simp)).trans (only second (by simp)).symm) apart

/-- Where there is no candidate the digits are unknown. -/
theorem Candidates.decided_none (candidates : Candidates objects digits ids)
    (none : ∀ id, ¬ Candidate objects digits id) :
    decided digits ids = .error (.fault (.unknownRevision digits)) := by
  obtain rfl : ids = [] := by
    apply List.eq_nil_iff_forall_not_mem.mpr
    intro id member
    exact none id ((candidates.members id).mp member)
  rfl

/-- Where there are several candidates the digits are ambiguous. -/
theorem Candidates.decided_several (candidates : Candidates objects digits ids) {other : ObjectId}
    (apart : id ≠ other) (one : Candidate objects digits id)
    (another : Candidate objects digits other) :
    decided digits ids = .error (.ofText (ambiguity digits ids)) := by
  rw [← candidates.members] at one another
  match ids with
  | [] => cases one
  | [single] =>
    rw [List.mem_singleton] at one another
    exact absurd (one.trans another.symm) apart
  | first :: second :: rest => rfl

end candidates

section resolution

/-- Where there is no reference of the name none is read. -/
theorem Unreferenced.read {name : String} (unreferenced : repository.Unreferenced name) :
    RefFiles.read repository.dataPath repository.files name = .ok none := by
  have none : ([repository.dataPath, RefFiles.refsPath repository.dataPath,
      RefFiles.branchesPath repository.dataPath].map (·.join name)).find?
        repository.files.hasFile = none := by
    apply List.find?_eq_none.mpr
    intro path member
    obtain ⟨directory, inside, rfl⟩ := List.mem_map.mp member
    rw [unreferenced directory inside]
    decide
  -- opened without its equation, which takes long to derive for a path that is not a variable
  delta RefFiles.read
  rw [none]

/-- Digits that are no reference are looked up among the objects. -/
theorem Unreferenced.resolveName {branch : BranchName}
    (unreferenced : repository.Unreferenced branch.text)
    (looksLike : areDigits branch.text.toList = true) :
    repository.resolveName branch = repository.resolveDigits branch.text := by
  delta Repository.resolveName
  rw [unreferenced.read]
  exact if_pos looksLike

/-- All the digits of an identifier mean it. They are not looked up. -/
theorem Unreferenced.resolveName_toHex {branch : BranchName}
    (unreferenced : repository.Unreferenced id.toHex) (whole : branch.text = id.toHex) :
    repository.resolveName branch = .ok id := by
  have sized : id.toHex.toList.length = 40 := by rw [ObjectId.toList_toHex, id.length_hexChars]
  have looksLike : areDigits id.toHex.toList = true := by
    rw [areDigits, sized, ObjectId.toList_toHex]
    exact List.all_eq_true.mpr fun _ => ObjectId.isHex_of_mem_hexChars
  rw [← whole] at unreferenced looksLike sized
  rw [unreferenced.resolveName looksLike, resolveDigits,
    if_pos (by rw [← String.length_toList, sized]), whole, ObjectId.parse_toHex]
  rfl

/-- Digits that may stand for a commit are looked up among the objects. -/
theorem Abbreviates.meaningOf (abbreviates : repository.Abbreviates digits) (graph : Graph) :
    repository.meaningOf digits graph = repository.resolveDigits digits := by
  have least : 4 ≤ digits.toList.length := abbreviates.least
  have most : digits.toList.length ≤ 39 := abbreviates.most
  have filled : digits.toList ≠ [] := fun none => by
    rw [none] at least
    cases least
  have looksLike : areDigits digits.toList = true := by
    rw [areDigits, Bool.and_eq_true, Bool.and_eq_true, decide_eq_true_eq, decide_eq_true_eq]
    exact ⟨⟨least, by omega⟩, List.all_eq_true.mpr abbreviates.hexadecimal⟩
  have valid := BranchName.isValid_iff.mpr
    (BranchName.named_of_isHex filled abbreviates.hexadecimal)
  have named : repository.resolveName ⟨digits, valid⟩ = repository.resolveDigits digits :=
    Unreferenced.resolveName abbreviates.unreferenced looksLike
  rw [Repository.meaningOf, Revision.parse_of_isHex filled abbreviates.hexadecimal]
  exact named

/-- Of the identifiers that begin with digits those of commits are chosen. -/
theorem exists_chosen (searched : beginningWith repository.objectsPath repository.files digits =
    .ok ids) :
    ∃ chosen : ObjectId → Bool, repository.commitsBeginningWith digits = .ok (ids.filter chosen) ∧
      ∀ id, chosen id = true ↔ repository.source.kind id = .ok .commit := by
  delta Repository.commitsBeginningWith
  rw [searched]
  refine ⟨_, rfl, ?_⟩
  intro id
  cases repository.source.kind id <;> simp

/-- The identifier of the first object that was kept under it reads as its kind. -/
theorem Keeps.kind_iff (keeps : repository.Keeps objects)
    (kept : ∃ object ∈ objects, object.id = id) :
    repository.source.kind id = .ok .commit ↔
      (objects.find? fun object => object.id = id).map Object.kind = some .commit := by
  cases found : objects.find? fun object => object.id = id with
  | none =>
    obtain ⟨object, member, same⟩ := kept
    exact absurd same (by simpa using List.find?_eq_none.mp found object member)
  | some first =>
    have sized := keeps.sized first (List.mem_of_find?_eq_some found)
    rw [Repository.source, Source.kind, keeps.filled.read found sized]
    simp [Except.map]

/-- The commits that begin with digits are the candidates. -/
theorem Keeps.commitsBeginningWith (keeps : repository.Keeps objects)
    (hexadecimal : Hexadecimal digits) :
    ∃ ids, repository.commitsBeginningWith digits = .ok ids ∧ Candidates objects digits ids := by
  obtain ⟨chosen, listed, chooses⟩ := exists_chosen (keeps.filled.beginningWith hexadecimal)
  refine ⟨_, listed, (beginningWith_ordered _ digits).filter chosen, ?_⟩
  intro id
  rw [List.mem_filter, mem_beginningWith, MemoryStore.contains_storeAll, chooses, Candidate]
  constructor
  · rintro ⟨⟨kept, begins⟩, kind⟩
    exact ⟨(keeps.kind_iff kept).mp kind, begins⟩
  · intro candidate
    have kept := Candidate.kept candidate
    exact ⟨⟨kept, candidate.2⟩, (keeps.kind_iff kept).mpr candidate.1⟩

/-- What digits mean is decided by the candidates. -/
theorem Keeps.meaningOf (keeps : repository.Keeps objects)
    (abbreviates : repository.Abbreviates digits) :
    ∃ ids, Candidates objects digits ids ∧
      ∀ graph, repository.meaningOf digits graph = decided digits ids := by
  obtain ⟨ids, searched, candidates⟩ := keeps.commitsBeginningWith abbreviates.hexadecimal
  refine ⟨ids, candidates, ?_⟩
  intro graph
  have short : digits.length ≠ 40 := fun all => by
    have most := abbreviates.most
    omega
  rw [abbreviates.meaningOf, resolveDigits, if_neg short, searched]
  match ids with
  | [] | [_] | _ :: _ :: _ => rfl

end resolution

/-- Digits that are no reference mean a commit exactly when it is the only one whose identifier
begins with them, in lower case. They are unknown when there is none, and ambiguous when there are
several, which are all told. Nothing but the commits that begin with them counts, and as many or
more digits of the commit that they mean, in either case, mean it too.

Proof: the objects that begin with the digits are found in the directory as in a memory that keeps
the same objects. What is decided depends on the list of commits among them, which holds each
candidate once. -/
theorem abbreviation_means (keeps : repository.Keeps objects)
    (abbreviates : repository.Abbreviates digits) (graph : Graph) :
    (∀ id, repository.meaningOf digits graph = .ok id ↔
      Candidate objects digits id ∧ ∀ other, Candidate objects digits other → other = id) ∧
    ((∀ id, ¬ Candidate objects digits id) →
      repository.meaningOf digits graph = .error (.fault (.unknownRevision digits))) ∧
    (∀ id other, id ≠ other → Candidate objects digits id → Candidate objects digits other →
      ∃ ids, Candidates objects digits ids ∧
        repository.meaningOf digits graph = .error (.ofText (ambiguity digits ids))) ∧
    (∀ (elsewhere : Repository) (others : List Object) (known : Graph), elsewhere.Keeps others →
      elsewhere.Abbreviates digits →
      (∀ id, Candidate others digits id ↔ Candidate objects digits id) →
      MeansAlike digits (repository.meaningOf digits graph) (elsewhere.meaningOf digits known)) ∧
    ∀ id longer known, repository.meaningOf digits graph = .ok id →
      repository.Abbreviates longer → digits.length ≤ longer.length →
      longer.toLower.toList <+: id.hexChars → repository.meaningOf longer known = .ok id := by
  obtain ⟨ids, candidates, means⟩ := keeps.meaningOf abbreviates
  rw [means graph]
  refine ⟨fun id => candidates.decided_iff, candidates.decided_none, ?_, ?_, ?_⟩
  · intro id other apart one another
    exact ⟨ids, candidates, candidates.decided_several apart one another⟩
  · intro elsewhere others known keepsToo abbreviatesToo same
    obtain ⟨found, candidatesToo, meansToo⟩ := keepsToo.meaningOf abbreviatesToo
    rw [meansToo]
    exact decided_alike digits (candidates.perm candidatesToo same)
  · intro id longer known found abbreviatesToo most begins
    obtain ⟨⟨commit, begun⟩, only⟩ := candidates.decided_iff.mp found
    obtain ⟨few, candidatesToo, meansToo⟩ := keeps.meaningOf abbreviatesToo
    rw [meansToo, candidatesToo.decided_iff]
    have front : digits.toLower.toList <+: longer.toLower.toList := by
      apply List.prefix_of_prefix_length_le begun begins
      simpa [toList_toLower, String.length_toList] using most
    constructor
    · exact ⟨commit, begins⟩
    · rintro other ⟨kind, otherBegins⟩
      exact only other ⟨kind, front.trans otherBegins⟩

/-- Two commits and a blob whose identifiers begin alike. -/
def resembling : List Object := [⟨.commit, [4]⟩, ⟨.commit, [39, 76]⟩, ⟨.blob, [120, 81]⟩]

/-- Files with an empty data directory. -/
def unfilled : FileSystem := FileSystem.insert {} [".git"] .directory

/-- The files after those objects were kept there. -/
def resemblingFiles : FileSystem :=
  (storeAll ⟨"/.git/objects"⟩ Zlib.pack unfilled (resembling.zip [1, 2, 3])).2

/-- No object was kept in it yet. -/
theorem unfilled_empty : Empty ⟨"/.git/objects"⟩ unfilled := by
  have standing : FileSystem.Standing unfilled "/.git" [".git"] := ⟨by rfl, by rfl⟩
  have admits : FileSystem.Admits "/.git" "objects" :=
    ⟨⟨by decide, by decide, by decide, by decide⟩, by decide, by decide, by decide +kernel⟩
  apply empty_of_vacant standing admits
  intro names
  rw [unfilled, FileSystem.entry?_insert, if_neg]
  · cases names <;> exact Std.TreeMap.getElem?_emptyc
  · intro same
    have lengths := congrArg List.length same
    simp at lengths

/-- The digits of one commit only mean it, though a blob has them too, and those of both commits
are ambiguous. -/
theorem abbreviation_means_resembling :
    ∃ repository : Repository, repository.Keeps resembling ∧
      repository.meaningOf "08Cb6" {} = .ok (Object.id ⟨.commit, [4]⟩) ∧
      ∃ ids, Candidates resembling "08CB" ids ∧
        repository.meaningOf "08CB" {} = .error (.ofText (ambiguity "08CB" ids)) := by
  -- evaluated at once, since each evaluation digests the objects again
  have evaluated :
      (Unreferenced ⟨⟨"/"⟩, resemblingFiles⟩ "08CB" ∧
        Unreferenced ⟨⟨"/"⟩, resemblingFiles⟩ "08Cb6") ∧
      (Candidate resembling "08Cb6" (Object.id ⟨.commit, [4]⟩) ∧
        ∀ object ∈ resembling, Candidate resembling "08Cb6" object.id →
          object.id = Object.id ⟨.commit, [4]⟩) ∧
      Candidate resembling "08CB" (Object.id ⟨.commit, [4]⟩) ∧
      Candidate resembling "08CB" (Object.id ⟨.commit, [39, 76]⟩) ∧
      Object.id ⟨.commit, [4]⟩ ≠ Object.id ⟨.commit, [39, 76]⟩ := by
    unfold Unreferenced Candidate
    decide +kernel
  have filled := (Filled.empty unfilled_empty).storeAll (by decide) Zlib.packs_pack
    (resembling.zip [1, 2, 3])
  have path : (Path.join ⟨"/"⟩ ".git").join "objects" = ⟨"/.git/objects"⟩ := by decide
  have objects : (resembling.zip [(1 : UInt32), 2, 3]).map Prod.fst = resembling := rfl
  obtain ⟨files, kept⟩ : ∃ files, files = resemblingFiles := ⟨_, rfl⟩
  rw [objects, ← resemblingFiles, ← kept] at filled
  rw [← kept] at evaluated
  obtain ⟨⟨four, five⟩, ⟨candidate, only⟩, one, another, apart⟩ := evaluated
  rw [List.nil_append, ← path] at filled
  have keeps : Keeps ⟨⟨"/"⟩, files⟩ resembling := ⟨filled, by decide +kernel⟩
  have several : Abbreviates ⟨⟨"/"⟩, files⟩ "08CB" :=
    ⟨List.all_eq_true.mp (by decide), by decide, by decide, four⟩
  have single : Abbreviates ⟨⟨"/"⟩, files⟩ "08Cb6" :=
    ⟨List.all_eq_true.mp (by decide), by decide, by decide, five⟩
  refine ⟨⟨⟨"/"⟩, files⟩, keeps, ?_, ?_⟩
  · obtain ⟨means, _⟩ := abbreviation_means keeps single {}
    refine (means _).mpr ⟨candidate, ?_⟩
    intro other begins
    obtain ⟨object, member, rfl⟩ := begins.kept
    exact only object member begins
  · obtain ⟨_, _, ambiguous, _⟩ := abbreviation_means keeps several {}
    exact ambiguous _ _ apart one another

end Repository

end Ancestry
