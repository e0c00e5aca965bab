import Mathlib.Data.List.Basic
import Mathlib.Data.List.Forall2
import SlamSystemManager.Library.Double

/-!
# YAML documents

A document as the tree that a YAML library reads, without anchors and with scalars as the keys of
its maps. `find` is the way of a reader, by the keys of maps; `place` addresses the items of a list
by their indices as well, which is what the library makes keys of when it turns a list into a map.
`setAt` is the assignment to a place, with the maps on the way to it made as the library makes them.
What a scalar converts to is left to the library.
-/

open Numeric

inductive Yaml where
  | null
  | scalar (text : String)
  | sequence (items : List Yaml)
  | map (entries : List (String × Yaml))

namespace Yaml

def isMap : Yaml → Bool
  | .map _ => true
  | _ => false

def isScalar : Yaml → Bool
  | .scalar _ => true
  | _ => false

/-! ## Places -/

/-- The entries of a map. -/
def entries : Yaml → List (String × Yaml)
  | .map entries => entries
  | _ => []

/-- The entries of a map, or the items of a list under their indices. -/
def children : Yaml → List (String × Yaml)
  | .map entries => entries
  | .sequence items => items.mapIdx fun index item ↦ (toString index, item)
  | _ => []

def find : Yaml → List String → Option Yaml
  | node, [] => some node
  | node, key :: path => (node.entries.lookup key).bind fun child ↦ child.find path

def place : Yaml → List String → Option Yaml
  | node, [] => some node
  | node, key :: path => (node.children.lookup key).bind fun child ↦ child.place path

/-- The first entry of a key is replaced, or an entry is added. -/
def setEntry (key : String) (value : Yaml) : List (String × Yaml) → List (String × Yaml)
  | [] => [(key, value)]
  | entry :: entries =>
    if entry.1 = key then (entry.1, value) :: entries else entry :: setEntry key value entries

/-- The child under a key as an assignment takes it. -/
def child (node : Yaml) (key : String) : Yaml := (node.children.lookup key).getD .null

/-- The document with a value at a place; a scalar on the way is in its way. -/
def setAt : Yaml → List String → Yaml → Option Yaml
  | _, [], value => some value
  | node, key :: path, value =>
    if node.isScalar then none
    else
      ((node.child key).setAt path value).map fun child ↦ .map (setEntry key child node.children)

@[simp] theorem entries_map (entries : List (String × Yaml)) : (map entries).entries = entries :=
  rfl

@[simp] theorem children_map (entries : List (String × Yaml)) : (map entries).children = entries :=
  rfl

@[simp] theorem find_nil (node : Yaml) : node.find [] = some node := rfl

@[simp] theorem place_nil (node : Yaml) : node.place [] = some node := rfl

theorem place_append (node : Yaml) (path rest : List String) :
    node.place (path ++ rest) = (node.place path).bind fun child ↦ child.place rest := by
  induction path generalizing node with
  | nil => rfl
  | cons key path ih =>
    simp only [List.cons_append, place, Option.bind_assoc, ih]

theorem find_append (node : Yaml) (path rest : List String) :
    node.find (path ++ rest) = (node.find path).bind fun child ↦ child.find rest := by
  induction path generalizing node with
  | nil => rfl
  | cons key path ih =>
    simp only [List.cons_append, find, Option.bind_assoc, ih]

theorem isMap_of_find {node value : Yaml} {key : String} {path : List String}
    (h : node.find (key :: path) = some value) : node.isMap = true := by
  cases node with
  | map entries => rfl
  | _ => cases h

/-- What a reader finds is at the place. -/
theorem place_of_find {node value : Yaml} {path : List String} (h : node.find path = some value) :
    node.place path = some value := by
  induction path generalizing node with
  | nil => exact h
  | cons key path ih =>
    obtain ⟨child, hchild, hrest⟩ := Option.bind_eq_some_iff.mp h
    cases node with
    | map entries => exact Option.bind_eq_some_iff.mpr ⟨child, hchild, ih hrest⟩
    | _ => cases hchild

theorem lookup_setEntry (key other : String) (value : Yaml) (entries : List (String × Yaml)) :
    (setEntry key value entries).lookup other =
      if other = key then some value else entries.lookup other := by
  induction entries with
  | nil =>
    by_cases hsame : other = key
    · simp [setEntry, hsame]
    · simp [setEntry, List.lookup_cons, hsame, beq_eq_false_iff_ne.mpr hsame]
  | cons entry entries ih =>
    obtain ⟨name, node⟩ := entry
    by_cases hentry : name = key
    · subst hentry
      by_cases hsame : other = name
      · simp [setEntry, hsame]
      · simp [setEntry, List.lookup_cons, hsame, beq_eq_false_iff_ne.mpr hsame]
    · rw [setEntry, if_neg hentry, List.lookup_cons, ih, List.lookup_cons]
      by_cases hname : other = name
      · subst hname
        simp [hentry]
      · simp [beq_eq_false_iff_ne.mpr hname]

/-! ## Assignments -/

theorem setAt_cons_eq_some {node after : Yaml} {key : String} {path : List String} {value : Yaml}
    (h : node.setAt (key :: path) value = some after) :
    ∃ child, (node.child key).setAt path value = some child ∧
      after = .map (setEntry key child node.children) := by
  simp only [setAt] at h
  split_ifs at h
  obtain ⟨child, hchild, hafter⟩ := Option.map_eq_some_iff.mp h
  exact ⟨child, hchild, hafter.symm⟩

/-- The value is found where it has been put. -/
theorem find_setAt {node after value : Yaml} {path : List String}
    (h : node.setAt path value = some after) : after.find path = some value := by
  induction path generalizing node after with
  | nil => exact h.symm
  | cons key path ih =>
    obtain ⟨child, hchild, rfl⟩ := setAt_cons_eq_some h
    simp only [find, entries_map, lookup_setEntry, if_true, Option.bind_some]
    exact ih hchild

/-- Every other place is left as it was. -/
theorem place_setAt_of_apart {node after value : Yaml} {path other : List String}
    (h : node.setAt path value = some after) (hbelow : ¬path <+: other) (habove : ¬other <+: path) :
    after.place other = node.place other := by
  induction path generalizing node after other with
  | nil => exact absurd (List.nil_prefix) hbelow
  | cons key path ih =>
    cases other with
    | nil => exact absurd (List.nil_prefix) habove
    | cons name other =>
      obtain ⟨child, hchild, rfl⟩ := setAt_cons_eq_some h
      simp only [place, children_map, lookup_setEntry]
      by_cases hsame : name = key
      · subst hsame
        rw [List.cons_prefix_cons] at hbelow habove
        have hinner := ih hchild (fun h ↦ hbelow ⟨rfl, h⟩) (fun h ↦ habove ⟨rfl, h⟩)
        simp only [if_true, Option.bind_some, hinner, Yaml.child]
        cases hlookup : node.children.lookup name with
        | some found => rfl
        | none =>
          cases other with
          | nil => exact absurd ⟨rfl, List.nil_prefix⟩ habove
          | cons => rfl
      · simp only [if_neg hsame]

theorem place_cons_eq_scalar (node : Yaml) (key : String) (path : List String) (text : String) :
    node.place (key :: path) = some (.scalar text) ↔
      (node.child key).place path = some (.scalar text) := by
  rw [place, child]
  cases node.children.lookup key with
  | some found => rfl
  | none =>
    apply iff_of_false
    · exact nofun
    · cases path <;> exact nofun

theorem isSome_setAt_cons {node : Yaml} (hscalar : node.isScalar = false) (key : String)
    (path : List String) (value : Yaml) :
    (node.setAt (key :: path) value).isSome = ((node.child key).setAt path value).isSome := by
  simp [setAt, hscalar]

theorem child_of_find {node child : Yaml} {key : String} (h : node.find [key] = some child) :
    node.child key = child := by
  have hplace : node.place [key] = some child := place_of_find h
  obtain ⟨found, hfound, hchild⟩ := Option.bind_eq_some_iff.mp hplace
  cases hchild
  rw [Yaml.child, hfound]
  rfl

theorem isScalar_of_isMap {node : Yaml} (h : node.isMap = true) : node.isScalar = false := by
  cases node with
  | scalar text => cases h
  | _ => rfl

/-- Behind a node that is found an assignment goes as it goes from there. -/
theorem isSome_setAt_append {node inner : Yaml} {path : List String} (rest : List String)
    (value : Yaml) (h : node.find path = some inner) :
    (node.setAt (path ++ rest) value).isSome = (inner.setAt rest value).isSome := by
  induction path generalizing node with
  | nil =>
    cases h
    rfl
  | cons key path ih =>
    have hmap : node.isMap = true := isMap_of_find h
    rw [← List.singleton_append, find_append] at h
    obtain ⟨child, hchild, hrest⟩ := Option.bind_eq_some_iff.mp h
    rw [List.cons_append, isSome_setAt_cons (isScalar_of_isMap hmap), child_of_find hchild,
      ih hrest]

/-- A reader finds what was found before at every other place. -/
theorem find_setAt_of_apart {node after value found : Yaml} {path other : List String}
    (h : node.setAt path value = some after) (hother : node.find other = some found)
    (hbelow : ¬path <+: other) (habove : ¬other <+: path) : after.find other = some found := by
  induction path generalizing node after other with
  | nil => exact absurd List.nil_prefix hbelow
  | cons key path ih =>
    cases other with
    | nil => exact absurd List.nil_prefix habove
    | cons name other =>
      obtain ⟨inner, hinner, rfl⟩ := setAt_cons_eq_some h
      obtain ⟨entries, rfl⟩ : ∃ entries, node = .map entries := by
        cases node with
        | map entries => exact ⟨entries, rfl⟩
        | _ => cases hother
      obtain ⟨child, hchild, hrest⟩ := Option.bind_eq_some_iff.mp hother
      simp only [find, entries_map, children_map, lookup_setEntry]
      by_cases hsame : name = key
      · subst hsame
        rw [List.cons_prefix_cons] at hbelow habove
        have hnode : (map entries).child name = child := by
          rw [Yaml.child, children_map]
          exact congrArg (fun found ↦ Option.getD found .null) hchild
        rw [hnode] at hinner
        rw [if_pos rfl, Option.bind_some]
        exact ih hinner hrest (fun h ↦ hbelow ⟨rfl, h⟩) (fun h ↦ habove ⟨rfl, h⟩)
      · rw [if_neg hsame]
        exact hother

/-! ## Entries with one key -/

/-- What a map holds into which entries have been put one after the other, of which the first of a
key counts. -/
def firstEntries {α : Type} : List (String × α) → List (String × α)
  | [] => []
  | entry :: entries => entry :: (firstEntries entries).filter fun other ↦ other.1 ≠ entry.1

theorem lookup_filter_ne {α : Type} {key other : String} (h : other ≠ key)
    (entries : List (String × α)) :
    (entries.filter fun entry ↦ entry.1 ≠ key).lookup other = entries.lookup other := by
  induction entries with
  | nil => rfl
  | cons entry entries ih =>
    obtain ⟨name, value⟩ := entry
    by_cases hkey : name = key
    · subst hkey
      rw [List.filter_cons_of_neg (by simp), ih, List.lookup_cons, beq_eq_false_iff_ne.mpr h]
    · rw [List.filter_cons_of_pos (by simp [hkey]), List.lookup_cons, List.lookup_cons, ih]

theorem lookup_firstEntries {α : Type} (key : String) (entries : List (String × α)) :
    (firstEntries entries).lookup key = entries.lookup key := by
  induction entries with
  | nil => rfl
  | cons entry entries ih =>
    obtain ⟨name, value⟩ := entry
    rw [firstEntries, List.lookup_cons, List.lookup_cons]
    by_cases hkey : key = name
    · simp [hkey]
    · rw [beq_eq_false_iff_ne.mpr hkey, lookup_filter_ne hkey, ih]

theorem nodup_firstEntries {α : Type} (entries : List (String × α)) :
    ((firstEntries entries).map Prod.fst).Nodup := by
  induction entries with
  | nil => exact List.nodup_nil
  | cons entry entries ih =>
    rw [firstEntries, List.map_cons, List.nodup_cons]
    constructor
    · intro hmem
      obtain ⟨other, hother, hsame⟩ := List.mem_map.mp hmem
      exact absurd hsame (of_decide_eq_true (List.mem_filter.mp hother).2)
    · exact ih.sublist (List.Sublist.map _ List.filter_sublist)

theorem mem_of_mem_firstEntries {α : Type} {entry : String × α} {entries : List (String × α)}
    (h : entry ∈ firstEntries entries) : entry ∈ entries := by
  induction entries with
  | nil => exact h
  | cons first entries ih =>
    rcases List.mem_cons.mp h with rfl | hrest
    · exact List.mem_cons_self
    · exact List.mem_cons_of_mem _ (ih (List.mem_of_mem_filter hrest))

/-! ## Files -/

/-- A file: its bytes, and what `LoadFile` reads from it or throws. -/
structure File where
  bytes : List UInt8
  yaml : Except String Yaml

/-- The file of a document that has been emitted; the library reads back what it emits. -/
def file (emit : Yaml → List UInt8) (document : Yaml) : File := ⟨emit document, .ok document⟩

/-! ## Readers -/

theorem bind_eq_ok {α β : Type} {x : Except String α} {f : α → Except String β} {b : β} :
    (x >>= f) = .ok b ↔ ∃ a, x = .ok a ∧ f a = .ok b := by
  cases x <;> simp [Bind.bind, Except.bind]

theorem pure_eq_ok {α : Type} {a b : α} : (pure a : Except String α) = .ok b ↔ a = b := by
  simp [pure, Except.pure]

theorem mapM_eq_ok {α β : Type} {f : α → Except String β} {items : List α} {values : List β} :
    items.mapM f = .ok values ↔
      List.Forall₂ (fun item value ↦ f item = .ok value) items values := by
  induction items generalizing values with
  | nil =>
    rw [List.mapM_nil, pure_eq_ok, List.forall₂_nil_left_iff]
    exact eq_comm
  | cons item items ih =>
    rw [List.mapM_cons, List.forall₂_cons_left_iff]
    simp only [bind_eq_ok, pure_eq_ok, ih]
    constructor
    · rintro ⟨value, hvalue, rest, hrest, rfl⟩
      exact ⟨value, rest, hvalue, hrest, rfl⟩
    · rintro ⟨value, rest, hvalue, hrest, rfl⟩
      exact ⟨value, hvalue, rest, hrest, rfl⟩

/-- A check that a reader makes before it goes on. -/
theorem throw_or_eq_ok {α : Type} {p : Prop} [Decidable p] {what : String} {rest : Except String α}
    {a : α} :
    (if p then (throw what : Except String PUnit) >>= fun _ ↦ rest else rest) = .ok a ↔
      ¬p ∧ rest = .ok a := by
  by_cases hp : p
  · simp [hp, throw, throwThe, MonadExceptOf.throw, Bind.bind, Except.bind]
  · simp [hp]

/-- What scalars convert to, and the texts of the exceptions. -/
structure Conversions where
  real : String → Option Double
  natural : String → Option ℕ
  flag : String → Option Bool
  /-- A null as a string, if it is one. -/
  nullText : Option String := none
  badConversion : Yaml → String
  badSubscript : String → String

namespace Conversions

variable (convert : Conversions)

/-- The subscript of a constant node. -/
def subscript (node : Yaml) (key : String) : Except String (Option Yaml) :=
  if node.isScalar then .error (convert.badSubscript key) else .ok (node.find [key])

def asScalar {α : Type} (read : String → Option α) (node : Yaml) : Except String α :=
  match node with
  | .scalar text => (read text).elim (.error (convert.badConversion node)) .ok
  | _ => .error (convert.badConversion node)

def asReal : Yaml → Except String Double := convert.asScalar convert.real

def asNatural : Yaml → Except String ℕ := convert.asScalar convert.natural

def asFlag : Yaml → Except String Bool := convert.asScalar convert.flag

def asText (node : Yaml) : Except String String :=
  match node with
  | .scalar text => .ok text
  | .null => convert.nullText.elim (.error (convert.badConversion node)) .ok
  | _ => .error (convert.badConversion node)

/-- A value that has to be there, with the texts for one that is missing or cannot be read. -/
def required {α : Type} (missing : String) (invalid : String → String)
    (as : Yaml → Except String α) (parent : Yaml) (key : String) : Except String α :=
  match convert.subscript parent key with
  | .error what => .error what
  | .ok none => .error missing
  | .ok (some .null) => .error missing
  | .ok (some node) => (as node).mapError invalid

/-- A value that has to be a map. -/
def requiredMap (missing : String) (parent : Yaml) (key : String) : Except String Yaml :=
  match convert.subscript parent key with
  | .error what => .error what
  | .ok (some (.map entries)) => .ok (.map entries)
  | .ok _ => .error missing

variable {convert}

theorem subscript_eq_ok {parent : Yaml} {key : String} {node : Yaml} :
    convert.subscript parent key = .ok (some node) ↔ parent.find [key] = some node := by
  unfold subscript
  cases parent with
  | scalar text => exact iff_of_false nofun nofun
  | _ => simp [isScalar]

theorem mapError_eq_ok {α : Type} {result : Except String α} {f : String → String} {value : α} :
    result.mapError f = .ok value ↔ result = .ok value := by
  cases result <;> simp [Except.mapError]

/-- What a value that has been read says about the document. -/
theorem required_eq_ok {α : Type} {missing : String} {invalid : String → String}
    {as : Yaml → Except String α} {parent : Yaml} {key : String} {value : α} :
    convert.required missing invalid as parent key = .ok value ↔
      ∃ node, parent.find [key] = some node ∧ node ≠ .null ∧ as node = .ok value := by
  unfold required subscript
  by_cases hscalar : parent.isScalar = true
  · have hnone : parent.find [key] = none := by
      cases parent with
      | scalar text => rfl
      | _ => cases hscalar
    simp [hscalar, hnone]
  · simp only [hscalar]
    cases hfind : parent.find [key] with
    | none => simp
    | some node =>
      cases node with
      | null => simp
      | scalar | sequence | map =>
        simp only [Bool.false_eq_true, if_false, mapError_eq_ok, Option.some.injEq,
          exists_eq_left', ne_eq, reduceCtorEq, not_false_eq_true, true_and]

theorem required_asText_eq_ok {missing : String} {invalid : String → String} {parent : Yaml}
    {key value : String} :
    convert.required missing invalid convert.asText parent key = .ok value ↔
      parent.find [key] = some (.scalar value) := by
  rw [required_eq_ok]
  constructor
  · rintro ⟨node, hfind, hsome, hread⟩
    cases node with
    | scalar text =>
      cases hread
      exact hfind
    | null => exact absurd rfl hsome
    | _ => cases hread
  · intro hfind
    exact ⟨_, hfind, nofun, rfl⟩

theorem required_asScalar_eq_ok {α : Type} {read : String → Option α} {missing : String}
    {invalid : String → String} {parent : Yaml} {key : String} {value : α} :
    convert.required missing invalid (convert.asScalar read) parent key = .ok value ↔
      ∃ node, parent.find [key] = some node ∧ convert.asScalar read node = .ok value := by
  rw [required_eq_ok]
  constructor
  · rintro ⟨node, hfind, -, hread⟩
    exact ⟨node, hfind, hread⟩
  · rintro ⟨node, hfind, hread⟩
    refine ⟨node, hfind, ?_, hread⟩
    rintro rfl
    cases hread

theorem required_asReal_eq_ok {missing : String} {invalid : String → String} {parent : Yaml}
    {key : String} {value : Double} :
    convert.required missing invalid convert.asReal parent key = .ok value ↔
      ∃ node, parent.find [key] = some node ∧ convert.asReal node = .ok value :=
  required_asScalar_eq_ok

theorem required_asFlag_eq_ok {missing : String} {invalid : String → String} {parent : Yaml}
    {key : String} {value : Bool} :
    convert.required missing invalid convert.asFlag parent key = .ok value ↔
      ∃ node, parent.find [key] = some node ∧ convert.asFlag node = .ok value :=
  required_asScalar_eq_ok

theorem requiredMap_eq_ok {missing : String} {parent : Yaml} {key : String} {node : Yaml} :
    convert.requiredMap missing parent key = .ok node ↔
      parent.find [key] = some node ∧ node.isMap = true := by
  rw [← @subscript_eq_ok convert]
  unfold requiredMap
  constructor
  · intro hread
    split at hread
    · cases hread
    · next entries hsubscript =>
      cases hread
      exact ⟨hsubscript, rfl⟩
    · cases hread
  · rintro ⟨hsubscript, hmap⟩
    rw [hsubscript]
    cases node with
    | map entries => rfl
    | _ => cases hmap

end Conversions

end Yaml
