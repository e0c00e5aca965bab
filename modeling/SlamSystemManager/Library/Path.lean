import Mathlib.Data.List.Induction
import Mathlib.Tactic.SplitIfs

/-!
# Absolute paths and symbolic links

The two ways in which a program can normalise an absolute POSIX path. The lexical one erases `.`
and `..` from the spelling and knows nothing of the file system; it keeps the empty last element
of a path that ends in a separator. The canonical one asks the file system for every element and
follows symbolic links. The lemmas say what each of them makes of a path, and that they agree on
the elements of a path that meets no link.
-/

namespace PosixPath

/-- An absolute path: the elements that an iteration over it yields after the root directory. The
last one is empty when the path ends in a separator. -/
structure Path where
  elements : List String
  deriving DecidableEq

/-- An element that names an entry of a directory. -/
def IsName (element : String) : Prop := element ≠ "" ∧ element ≠ "." ∧ element ≠ ".."

instance (element : String) : Decidable (IsName element) :=
  inferInstanceAs (Decidable (_ ∧ _))

namespace Path

/-- A path that ends in a separator. -/
def withSlash (names : List String) : Path := ⟨if names = [] then [] else names ++ [""]⟩

/-- The elements without the empty one behind a last separator. -/
def names (path : Path) : List String :=
  if path.elements.getLast? = some "" then path.elements.dropLast else path.elements

/-- The path that a text spells; repeated separators count as one. -/
def parse (text : String) : Path :=
  let parts := text.toList.splitOn '/'
  let names := (parts.filter fun part ↦ !part.isEmpty).map String.ofList
  if parts.getLast? = some [] then withSlash names else ⟨names⟩

/-- `path / element`, for the name of an entry. -/
def append (path : Path) (element : String) : Path := ⟨path.names ++ [element]⟩

/-- `parent_path()`. -/
def parentPath (path : Path) : Path := ⟨path.elements.dropLast⟩

/-- `filename()`. -/
def filename (path : Path) : String := path.elements.getLast?.getD ""

/-- `string()`. -/
def text (path : Path) : String := "/" ++ "/".intercalate path.elements

/-- One element of `lexically_normal()`: `..` takes the last name away and leaves the separator
before it, `.` and an empty element leave the separator they follow. -/
def normalStep (path : Path) (element : String) : Path :=
  if element = ".." then withSlash path.names.dropLast
  else if element = "." ∨ element = "" then withSlash path.names
  else path.append element

/-- `lexically_normal()`. -/
def lexicallyNormal (path : Path) : Path := path.elements.foldl normalStep ⟨[]⟩

end Path

/-- What one more element of a spelling makes of the names before it. -/
def textStep (names : List String) (element : String) : List String :=
  if element = ".." then names.dropLast
  else if element = "." ∨ element = "" then names
  else names ++ [element]

/-- The names that remain of a spelling when `.` and `..` are erased from it. -/
def textNames (elements : List String) : List String := elements.foldl textStep []

/-! ## The lexical normal form -/

namespace Path

@[simp] theorem names_withSlash (names : List String) : (withSlash names).names = names := by
  unfold withSlash Path.names
  by_cases hempty : names = []
  · simp [hempty]
  · simp [hempty]

theorem names_append {path : Path} {element : String} (h : element ≠ "") :
    (path.append element).names = path.names ++ [element] := by
  unfold append
  rw [Path.names]
  simp [h]

theorem names_normalStep (path : Path) (element : String) :
    (path.normalStep element).names = textStep path.names element := by
  unfold normalStep textStep
  split_ifs with hup hhere
  · exact names_withSlash _
  · exact names_withSlash _
  · exact names_append (by tauto)

theorem names_foldl_normalStep (elements : List String) (path : Path) :
    (elements.foldl normalStep path).names = elements.foldl textStep path.names := by
  induction elements generalizing path with
  | nil => rfl
  | cons element rest ih => rw [List.foldl_cons, List.foldl_cons, ih, names_normalStep]

theorem names_lexicallyNormal (path : Path) :
    path.lexicallyNormal.names = textNames path.elements :=
  names_foldl_normalStep path.elements ⟨[]⟩

/-- The normal form ends in a separator unless the last element of the spelling is a name. -/
theorem lexicallyNormal_concat (elements : List String) (element : String) :
    lexicallyNormal ⟨elements ++ [element]⟩ =
      if IsName element then ⟨textNames (elements ++ [element])⟩
      else withSlash (textNames (elements ++ [element])) := by
  have hnames : (lexicallyNormal ⟨elements⟩).names = textNames elements :=
    names_lexicallyNormal ⟨elements⟩
  have hstep : lexicallyNormal ⟨elements ++ [element]⟩ =
      (lexicallyNormal ⟨elements⟩).normalStep element := by
    simp [lexicallyNormal]
  have htext : textNames (elements ++ [element]) = textStep (textNames elements) element := by
    simp [textNames]
  rw [hstep, htext, normalStep, textStep, hnames]
  unfold IsName
  split_ifs <;> first | rfl | tauto | simp_all [append]

end Path

theorem textStep_of_isName {names : List String} {element : String} (h : IsName element) :
    textStep names element = names ++ [element] := by
  obtain ⟨hempty, hhere, hup⟩ := h
  simp [textStep, hempty, hhere, hup]

/-- Names are left alone by the erasure. -/
theorem foldl_textStep_of_isName {elements : List String} (names : List String)
    (h : ∀ element ∈ elements, IsName element) :
    elements.foldl textStep names = names ++ elements := by
  induction elements generalizing names with
  | nil => simp
  | cons element rest ih =>
    rw [List.foldl_cons, textStep_of_isName (h element (by simp)),
      ih _ fun other hother ↦ h other (by simp [hother])]
    simp

theorem textNames_of_isName {elements : List String} (h : ∀ element ∈ elements, IsName element) :
    textNames elements = elements :=
  foldl_textStep_of_isName [] h

theorem Path.lexicallyNormal_of_isName {elements : List String}
    (h : ∀ element ∈ elements, IsName element) : lexicallyNormal ⟨elements⟩ = ⟨elements⟩ := by
  rcases List.eq_nil_or_concat elements with rfl | ⟨rest, last, rfl⟩
  · rfl
  · rw [List.concat_eq_append] at h ⊢
    rw [lexicallyNormal_concat, if_pos (h last (by simp)), textNames_of_isName h]

/-- Only a spelling that ends in a name, or names the root directory, has a normal form without a
last separator. -/
theorem Path.lexicallyNormal_eq_iff {elements names : List String} (hnames : "" ∉ names) :
    lexicallyNormal ⟨elements⟩ = ⟨names⟩ ↔
      textNames elements = names ∧ (names = [] ∨ ∃ last, elements.getLast? = some last ∧
        IsName last) := by
  rcases List.eq_nil_or_concat elements with rfl | ⟨rest, last, rfl⟩
  · simp only [lexicallyNormal, textNames, List.foldl_nil, Path.mk.injEq]
    constructor
    · rintro rfl
      simp
    · exact fun h ↦ h.1
  · rw [List.concat_eq_append, lexicallyNormal_concat]
    by_cases hlast : IsName last
    · simp [hlast]
    · rw [if_neg hlast, withSlash]
      by_cases hempty : textNames (rest ++ [last]) = []
      · simp [hempty, hlast, eq_comm]
      · have hne : textNames (rest ++ [last]) ++ [""] ≠ names := by
          rintro rfl
          simp at hnames
        simp [hempty, hlast, hne]
        rintro rfl
        exact hempty

/-! ## The file system -/

/-- What a directory entry is. The target of a link is a spelling of its own. -/
inductive Entry where
  | directory
  | regular
  | other
  | link (absolute : Bool) (target : List String)
  deriving DecidableEq

/-- The entries of a file system, by the names on the way to them from the root directory through
directories only. -/
structure FileSystem where
  entry : List String → Option Entry
  root : entry [] = some .directory
  parent : ∀ names name, (entry (names ++ [name])).isSome = true → entry names = some .directory

namespace FileSystem

/-- The walk over the elements of a path from a directory. What a link spells is followed by
`follow`, from the directory that holds the link or from the root directory. -/
def walk (fs : FileSystem) (follow : List String → List String → Option (List String))
    (names : List String) : List String → Option (List String)
  | [] => some names
  | element :: rest =>
    if element = ".." then fs.walk follow names.dropLast rest
    else if element = "." ∨ element = "" then fs.walk follow names rest
    else
      match fs.entry (names ++ [element]) with
      | some .directory => fs.walk follow (names ++ [element]) rest
      | some (.link absolute target) => follow (if absolute then [] else names) (target ++ rest)
      | some _ => if rest = [] then some (names ++ [element]) else none
      | none => none

/-- The resolution of a path with at most so many links on the way. -/
def resolve (fs : FileSystem) : ℕ → List String → List String → Option (List String)
  | 0, names, elements => fs.walk (fun _ _ ↦ none) names elements
  | links + 1, names, elements => fs.walk (fs.resolve links) names elements

/-- The number of links after which a resolution gives up. -/
def maxLinks : ℕ := 40

/-- `canonical()`: the names on the way to what a path denotes. -/
def canonical (fs : FileSystem) (path : Path) : Option Path :=
  (fs.resolve maxLinks [] path.elements).map Path.mk

/-- `is_directory()`. -/
def isDirectory (fs : FileSystem) (path : Path) : Bool :=
  (fs.canonical path).any fun found ↦ fs.entry found.elements = some .directory

/-- `is_regular_file()`. -/
def isRegularFile (fs : FileSystem) (path : Path) : Bool :=
  (fs.canonical path).any fun found ↦ fs.entry found.elements = some .regular

/-! ## What a walk ends at -/

/-- The names on the way to an entry that is no link. -/
structure Reaches (fs : FileSystem) (names : List String) : Prop where
  isName : ∀ name ∈ names, IsName name
  entry : ∃ entry, fs.entry names = some entry ∧ ∀ absolute target, entry ≠ .link absolute target

variable {fs : FileSystem}

theorem Reaches.dropLast {names : List String} (h : fs.Reaches names)
    (hdirectory : fs.entry names = some .directory) :
    fs.Reaches names.dropLast ∧ fs.entry names.dropLast = some .directory := by
  have hparent : fs.entry names.dropLast = some .directory := by
    rcases List.eq_nil_or_concat names with rfl | ⟨rest, last, rfl⟩
    · exact fs.root
    · rw [List.concat_eq_append] at hdirectory ⊢
      rw [List.dropLast_concat]
      exact fs.parent rest last (by simp [hdirectory])
  exact ⟨⟨fun name hname ↦ h.isName name (List.dropLast_subset _ hname),
    .directory, hparent, by simp⟩, hparent⟩

theorem reaches_concat {names : List String} {name : String} {entry : Entry}
    (hnames : ∀ other ∈ names, IsName other) (hname : IsName name)
    (hentry : fs.entry (names ++ [name]) = some entry)
    (hlink : ∀ absolute target, entry ≠ .link absolute target) : fs.Reaches (names ++ [name]) := by
  refine ⟨fun other hother ↦ ?_, entry, hentry, hlink⟩
  rcases List.mem_append.mp hother with hbefore | hlast
  · exact hnames other hbefore
  · rw [List.mem_singleton.mp hlast]
    exact hname

/-- A walk from a directory ends at an entry that is no link if the links lead to such entries. -/
theorem reaches_of_walk {follow : List String → List String → Option (List String)}
    (hfollow : ∀ names elements found, fs.Reaches names → fs.entry names = some .directory →
      follow names elements = some found → fs.Reaches found)
    {elements names found : List String} (hnames : fs.Reaches names)
    (hdirectory : fs.entry names = some .directory)
    (h : fs.walk follow names elements = some found) : fs.Reaches found := by
  induction elements generalizing names with
  | nil =>
    cases h
    exact hnames
  | cons element rest ih =>
    rw [walk] at h
    by_cases hup : element = ".."
    · rw [if_pos hup] at h
      exact ih (hnames.dropLast hdirectory).1 (hnames.dropLast hdirectory).2 h
    · by_cases hhere : element = "." ∨ element = ""
      · rw [if_neg hup, if_pos hhere] at h
        exact ih hnames hdirectory h
      rw [if_neg hup, if_neg hhere] at h
      have hname : IsName element := by
        unfold IsName
        tauto
      cases hentry : fs.entry (names ++ [element]) with
      | none => simp [hentry] at h
      | some entry =>
        cases entry with
        | directory =>
          simp only [hentry] at h
          exact ih (reaches_concat hnames.isName hname hentry (by simp)) hentry h
        | link absolute target =>
          simp only [hentry] at h
          cases absolute with
          | true => exact hfollow _ _ _ ⟨by simp, _, fs.root, by simp⟩ fs.root h
          | false => exact hfollow _ _ _ hnames hdirectory h
        | regular | other =>
          simp only [hentry] at h
          split_ifs at h with hlast
          cases h
          exact reaches_concat hnames.isName hname hentry (by simp)

theorem reaches_of_resolve {links : ℕ} {elements names found : List String}
    (hnames : fs.Reaches names) (hdirectory : fs.entry names = some .directory)
    (h : fs.resolve links names elements = some found) : fs.Reaches found := by
  induction links generalizing names elements found with
  | zero => exact reaches_of_walk (by simp) hnames hdirectory h
  | succ links ih =>
    exact reaches_of_walk (fun _ _ _ hreaches hentry hresolve ↦ ih hreaches hentry hresolve)
      hnames hdirectory h

theorem reaches_of_canonical {path found : Path} (h : fs.canonical path = some found) :
    fs.Reaches found.elements := by
  obtain ⟨names, hresolve, rfl⟩ := Option.map_eq_some_iff.mp h
  exact reaches_of_resolve ⟨by simp, _, fs.root, by simp⟩ fs.root hresolve

/-! ## Walks that meet no link -/

theorem directory_of_append {names rest : List String} (hrest : rest ≠ [])
    (h : (fs.entry (names ++ rest)).isSome = true) : fs.entry names = some .directory := by
  induction rest using List.reverseRecOn with
  | nil => exact absurd rfl hrest
  | append_singleton rest last ih =>
    rw [← List.append_assoc] at h
    have hbefore := fs.parent _ _ h
    by_cases hempty : rest = []
    · simpa [hempty] using hbefore
    · exact ih hempty (by simp [hbefore])

/-- A walk goes through the names on the way to a directory as they are. -/
theorem walk_append {follow : List String → List String → Option (List String)}
    {names inner rest : List String} (hinner : ∀ name ∈ inner, IsName name)
    (hdirectory : fs.entry (names ++ inner) = some .directory) :
    fs.walk follow names (inner ++ rest) = fs.walk follow (names ++ inner) rest := by
  induction inner generalizing names with
  | nil => simp
  | cons name inner ih =>
    obtain ⟨hempty, hhere, hup⟩ := hinner name (by simp)
    have hsplit : names ++ name :: inner = (names ++ [name]) ++ inner := by simp
    rw [hsplit] at hdirectory
    have hentry : fs.entry (names ++ [name]) = some .directory := by
      by_cases hlast : inner = []
      · simpa [hlast] using hdirectory
      · exact directory_of_append hlast (by rw [hdirectory]; rfl)
    rw [List.cons_append, walk, if_neg hup, if_neg (by simp [hempty, hhere]), hentry, hsplit]
    exact ih (fun other hother ↦ hinner other (by simp [hother])) hdirectory

/-- A path on the way to an entry that is no link is canonical already. -/
theorem canonical_of_reaches {names : List String} (h : fs.Reaches names) :
    fs.canonical ⟨names⟩ = some ⟨names⟩ := by
  suffices hwalk : ∀ follow, fs.walk follow [] names = some names by
    simp [canonical, maxLinks, resolve, hwalk]
  intro follow
  obtain ⟨hnames, entry, hentry, hlink⟩ := h
  rcases List.eq_nil_or_concat names with rfl | ⟨rest, last, rfl⟩
  · rfl
  · rw [List.concat_eq_append] at hnames hentry ⊢
    have hparent : fs.entry ([] ++ rest) = some .directory := fs.parent rest last (by simp [hentry])
    obtain ⟨hempty, hhere, hup⟩ := hnames last (by simp)
    rw [walk_append (fun name hname ↦ hnames name (by simp [hname])) hparent, List.nil_append,
      walk, if_neg hup, if_neg (by simp [hempty, hhere]), hentry]
    cases entry with
    | link absolute target => exact absurd rfl (hlink absolute target)
    | directory => rfl
    | regular | other => rfl

theorem isDirectory_of_entry {names : List String} (hnames : ∀ name ∈ names, IsName name)
    (h : fs.entry names = some .directory) : fs.isDirectory ⟨names⟩ = true := by
  simp [isDirectory, canonical_of_reaches ⟨hnames, _, h, by simp⟩, h]

/-- The elements of a spelling that a walk passes without meeting a link. -/
def Plain (fs : FileSystem) : List String → List String → Prop
  | _, [] => True
  | names, element :: rest =>
    if element = ".." then Plain fs names.dropLast rest
    else if element = "." ∨ element = "" then Plain fs names rest
    else fs.entry (names ++ [element]) = some .directory ∧ Plain fs (names ++ [element]) rest

/-- Without links a walk does what the erasure of `.` and `..` does. -/
theorem walk_of_plain {follow : List String → List String → Option (List String)}
    {elements names : List String} (h : fs.Plain names elements) :
    fs.walk follow names elements = some (elements.foldl textStep names) := by
  induction elements generalizing names with
  | nil => rfl
  | cons element rest ih =>
    rw [Plain] at h
    rw [walk, List.foldl_cons, textStep]
    by_cases hup : element = ".."
    · rw [if_pos hup] at h ⊢
      rw [if_pos hup]
      exact ih h
    · by_cases hhere : element = "." ∨ element = ""
      · rw [if_neg hup, if_pos hhere] at h ⊢
        rw [if_neg hup, if_pos hhere]
        exact ih h
      · rw [if_neg hup, if_neg hhere] at h ⊢
        rw [if_neg hup, if_neg hhere, h.1]
        exact ih h.2

theorem resolve_of_plain {links : ℕ} {elements names : List String} (h : fs.Plain names elements) :
    fs.resolve links names elements = some (elements.foldl textStep names) := by
  cases links <;> exact walk_of_plain h

end FileSystem

end PosixPath
