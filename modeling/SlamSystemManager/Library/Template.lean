import Mathlib.Data.List.Infix

/-!
# Templates and their tokens

A text over any alphabet in which names stand between two delimiters. No character of a name is a
delimiter, so two tokens of a text never overlap and the text is cut into characters and tokens in
one way. Values are put in for tokens on these pieces; a value is made of characters, so that a
token it spells is none of the text.
-/

namespace SlamSystemManager.Template

/-- Two delimiters, and the characters a name begins and goes on with. -/
structure TokenFormat (α : Type*) where
  left : α
  right : α
  head : α → Bool
  tail : α → Bool
  left_ne_right : left ≠ right
  head_left : head left = false
  tail_left : tail left = false
  head_right : head right = false
  tail_right : tail right = false

namespace TokenFormat

variable {α : Type*} (format : TokenFormat α)

def isName : List α → Bool
  | [] => false
  | first :: rest => format.head first && rest.all format.tail

def token (name : List α) : List α := format.left :: (name ++ [format.right])

section Names

variable {format} {name other : List α}

theorem notMem_of_isName (hname : format.isName name = true) {c : α} (hhead : format.head c = false)
    (htail : format.tail c = false) : c ∉ name := by
  cases name with
  | nil => simp
  | cons first rest =>
    rw [isName, Bool.and_eq_true, List.all_eq_true] at hname
    intro hmem
    rcases List.mem_cons.mp hmem with rfl | hrest
    · rw [hhead] at hname
      cases hname.1
    · have hc := hname.2 c hrest
      rw [htail] at hc
      cases hc

theorem left_notMem (hname : format.isName name = true) : format.left ∉ name :=
  notMem_of_isName hname format.head_left format.tail_left

theorem right_notMem (hname : format.isName name = true) : format.right ∉ name :=
  notMem_of_isName hname format.head_right format.tail_right

theorem left_notMem_name_right (hname : format.isName name = true) :
    format.left ∉ name ++ [format.right] := by
  rw [List.mem_append, List.mem_singleton]
  rintro (hmem | heq)
  · exact left_notMem hname hmem
  · exact format.left_ne_right heq

theorem token_append (name rest : List α) :
    format.token name ++ rest = format.left :: (name ++ format.right :: rest) := by
  simp [token]

@[simp] theorem length_token (name : List α) : (format.token name).length = name.length + 2 := by
  simp [token]

/-- Of two names that are followed by the closing delimiter each is the other. -/
theorem eq_of_append_right {rest rest' : List α} (hname : format.isName name = true)
    (hother : format.isName other = true)
    (h : name ++ format.right :: rest = other ++ format.right :: rest') :
    name = other ∧ rest = rest' := by
  have hnot := right_notMem hname
  have hnot' := right_notMem hother
  clear hname hother
  induction name generalizing other with
  | nil =>
    cases other with
    | nil => exact ⟨rfl, (List.cons.inj h).2⟩
    | cons first others =>
      exact absurd ((List.cons.inj h).1 ▸ List.mem_cons_self) hnot'
  | cons first names ih =>
    cases other with
    | nil => exact absurd ((List.cons.inj h).1 ▸ List.mem_cons_self) hnot
    | cons first' others =>
      obtain ⟨rfl, htails⟩ := List.cons.inj h
      obtain ⟨rfl, hrest⟩ := ih htails (fun hmem ↦ hnot (List.mem_cons_of_mem _ hmem))
        (fun hmem ↦ hnot' (List.mem_cons_of_mem _ hmem))
      exact ⟨rfl, hrest⟩

/-- A token at the start of a text that starts with another is the other. -/
theorem eq_of_token_isPrefix (hname : format.isName name = true)
    (hother : format.isName other = true) {rest : List α}
    (h : format.token other <+: format.token name ++ rest) : other = name := by
  obtain ⟨rest', h⟩ := h
  have hinner : other ++ format.right :: rest' = name ++ format.right :: rest := by
    simpa [token] using h
  exact (eq_of_append_right hother hname hinner).1

/-- A token at the start of a text ends before the next token begins. -/
theorem length_le_of_token_isPrefix (hother : format.isName other = true) {before rest : List α}
    (hbefore : before ≠ []) (h : format.token other <+: before ++ format.token name ++ rest) :
    (format.token other).length ≤ before.length := by
  obtain ⟨rest', h⟩ := h
  by_contra hlong
  rw [not_le] at hlong
  -- the opening delimiter of the later token would stand inside the earlier one
  have hat : (before ++ format.token name ++ rest)[before.length]? = some format.left := by
    simp [token]
  obtain ⟨first, before, rfl⟩ := List.exists_cons_of_ne_nil hbefore
  have hinside : (format.token other)[before.length + 1]? = some format.left := by
    rw [← h, List.getElem?_append_left hlong] at hat
    exact hat
  have hmem : format.left ∈ other ++ [format.right] := by
    rw [token, List.getElem?_cons_succ] at hinside
    exact List.mem_of_getElem? hinside
  exact left_notMem_name_right hother hmem

end Names

section Pieces

variable [DecidableEq α]

/-- The name of the token a text starts with. -/
def nameAt : List α → Option (List α)
  | first :: second :: rest =>
    if first = format.left ∧ format.head second = true ∧
        (rest.drop (rest.takeWhile format.tail).length).head? = some format.right then
      some (second :: rest.takeWhile format.tail)
    else none
  | _ => none

end Pieces

end TokenFormat

/-- A character, or a token by its name. -/
inductive Piece (α : Type*) where
  | char (c : α)
  | token (name : List α)

namespace TokenFormat

variable {α : Type*} (format : TokenFormat α)

def text : Piece α → List α
  | .char c => [c]
  | .token name => format.token name

/-- The pieces of a text; the first `skip` characters belong to a token already cut off. -/
def pieces [DecidableEq α] : ℕ → List α → List (Piece α)
  | _, [] => []
  | skip + 1, _ :: rest => pieces skip rest
  | 0, c :: rest =>
    match format.nameAt (c :: rest) with
    | some name => .token name :: pieces (name.length + 1) rest
    | none => .char c :: pieces 0 rest

/-- A piece with the value of its name, if it has one. -/
def put (value : List α → Option (List α)) : Piece α → List (Piece α)
  | .char c => [.char c]
  | .token name =>
    match value name with
    | some characters => characters.map .char
    | none => [.token name]

/-- The text with the values of the names put in for their tokens, all at once. -/
def fill [DecidableEq α] (value : List α → Option (List α)) (template : List α) : List α :=
  ((format.pieces 0 template).flatMap (put value)).flatMap format.text

section Names

variable {format} [DecidableEq α] {name : List α} {template : List α}

theorem nameAt_eq_some :
    format.nameAt template = some name ↔
      format.isName name = true ∧ format.token name <+: template := by
  constructor
  · intro h
    match template, h with
    | first :: second :: rest, h =>
      rw [nameAt] at h
      split_ifs at h with hshape
      obtain ⟨rfl, hhead, hright⟩ := hshape
      cases h
      refine ⟨by simp [isName, hhead], ?_⟩
      obtain ⟨more, hmore⟩ := List.head?_eq_some_iff.mp hright
      refine ⟨more, ?_⟩
      have hsplit : rest.takeWhile format.tail ++ format.right :: more = rest := by
        rw [← hmore]
        exact List.prefix_iff_eq_append.mp (List.takeWhile_prefix _)
      simp [token, hsplit]
  · rintro ⟨hname, rest, rfl⟩
    cases name with
    | nil => cases hname
    | cons first tail =>
      rw [isName, Bool.and_eq_true, List.all_eq_true] at hname
      have htake : (tail ++ format.right :: rest).takeWhile format.tail = tail := by
        rw [List.takeWhile_append_of_pos hname.2,
          List.takeWhile_cons_of_neg (by simp [format.tail_right]),
          List.append_nil]
      simp [token, nameAt, htake, hname.1]

theorem pieces_skip (skip : ℕ) (template : List α) :
    format.pieces skip template = format.pieces 0 (template.drop skip) := by
  induction skip generalizing template with
  | zero => rfl
  | succ skip ih =>
    cases template with
    | nil => rfl
    | cons c rest => exact ih rest

theorem pieces_token (hname : format.isName name = true) (rest : List α) :
    format.pieces 0 (format.token name ++ rest) = .token name :: format.pieces 0 rest := by
  have hat : format.nameAt (format.token name ++ rest) = some name :=
    nameAt_eq_some.mpr ⟨hname, List.prefix_append _ _⟩
  rw [token_append] at hat ⊢
  rw [pieces, hat]
  simp only
  rw [pieces_skip]
  congr 2
  simp [List.drop_append]

/-- The pieces are those of the text. -/
theorem flatMap_text_pieces (format : TokenFormat α) (template : List α) :
    (format.pieces 0 template).flatMap format.text = template := by
  induction hlength : template.length using Nat.strong_induction_on generalizing template with
  | _ length ih =>
    cases template with
    | nil => rfl
    | cons c rest =>
      subst hlength
      cases hat : format.nameAt (c :: rest) with
      | none =>
        rw [pieces, hat]
        simp only [List.flatMap_cons, text]
        rw [ih rest.length (by simp) rest rfl]
        rfl
      | some name =>
        obtain ⟨hname, more, hmore⟩ := nameAt_eq_some.mp hat
        rw [← hmore, pieces_token hname, List.flatMap_cons, text,
          ih more.length (by simp [← hmore]) more rfl]

theorem isName_of_mem_pieces (skip : ℕ) (h : .token name ∈ format.pieces skip template) :
    format.isName name = true := by
  fun_induction pieces format skip template with
  | case1 => cases h
  | case2 skip c rest ih => exact ih h
  | case3 c rest found hat ih =>
    rcases List.mem_cons.mp h with heq | hrest
    · cases heq
      exact (nameAt_eq_some.mp hat).1
    · exact ih hrest
  | case4 c rest hat ih =>
    rcases List.mem_cons.mp h with heq | hrest
    · cases heq
    · exact ih hrest

/-- Every occurrence of a token is a piece: an earlier token ends before it begins. -/
theorem mem_pieces_of_occurrence (hname : format.isName name = true) (before after : List α)
    {skip : ℕ} (hskip : skip ≤ before.length) :
    .token name ∈ format.pieces skip (before ++ format.token name ++ after) := by
  induction before generalizing skip with
  | nil =>
    obtain rfl := Nat.le_zero.mp hskip
    rw [List.nil_append, pieces_token hname]
    exact List.mem_cons_self
  | cons c before ih =>
    cases skip with
    | succ skip => exact ih (by simpa using hskip)
    | zero =>
      rw [List.cons_append, List.cons_append, pieces]
      cases hat : format.nameAt (c :: (before ++ format.token name ++ after)) with
      | none => exact List.mem_cons_of_mem _ (ih (Nat.zero_le _))
      | some other =>
        obtain ⟨hother, hstart⟩ := nameAt_eq_some.mp hat
        have hfits := length_le_of_token_isPrefix hother (List.cons_ne_nil c before) hstart
        rw [length_token, List.length_cons] at hfits
        exact List.mem_cons_of_mem _ (ih (by omega))

theorem mem_pieces_iff (hname : format.isName name = true) :
    .token name ∈ format.pieces 0 template ↔ format.token name <:+: template := by
  constructor
  · intro hmem
    obtain ⟨before, after, hsplit⟩ := List.append_of_mem hmem
    have htext := flatMap_text_pieces format template
    rw [hsplit, List.flatMap_append, List.flatMap_cons, text, ← List.append_assoc] at htext
    exact ⟨_, _, htext⟩
  · rintro ⟨before, after, rfl⟩
    exact mem_pieces_of_occurrence hname before after (Nat.zero_le _)

end Names

/-! ## Values put in one after the other -/

section Put

variable {format} {value next : List α → Option (List α)} {name : List α}

theorem flatMap_put_chars (value : List α → Option (List α)) (characters : List α) :
    (characters.map Piece.char).flatMap (put value) = characters.map Piece.char := by
  induction characters with
  | nil => rfl
  | cons c characters ih =>
    rw [List.map_cons, List.flatMap_cons, ih]
    rfl

theorem flatMap_text_chars (characters : List α) :
    (characters.map Piece.char).flatMap format.text = characters := by
  induction characters with
  | nil => rfl
  | cons c characters ih =>
    rw [List.map_cons, List.flatMap_cons, ih]
    rfl

/-- What has been put in stays, whatever it spells. -/
theorem put_put (value next : List α → Option (List α)) (pieces : List (Piece α)) :
    (pieces.flatMap (put value)).flatMap (put next) =
      pieces.flatMap (put fun name ↦ (value name).or (next name)) := by
  rw [List.flatMap_assoc]
  congr 1
  funext piece
  cases piece with
  | char c => rfl
  | token name =>
    simp only [put]
    cases hvalue : value name with
    | none => simp [put]
    | some characters => simp [flatMap_put_chars]

/-- A token spelled by characters. -/
def Spelled (format : TokenFormat α) (name : List α) (pieces : List (Piece α)) : Prop :=
  (format.token name).map Piece.char <:+: pieces

theorem Spelled.put {pieces : List (Piece α)} (h : format.Spelled name pieces)
    (value : List α → Option (List α)) : format.Spelled name (pieces.flatMap (put value)) := by
  obtain ⟨before, after, rfl⟩ := h
  rw [Spelled, List.flatMap_append, List.flatMap_append, flatMap_put_chars]
  exact ⟨_, _, rfl⟩

theorem Spelled.isInfix_text {pieces : List (Piece α)} (h : format.Spelled name pieces) :
    format.token name <:+: pieces.flatMap format.text := by
  obtain ⟨before, after, rfl⟩ := h
  rw [List.flatMap_append, List.flatMap_append, flatMap_text_chars]
  exact ⟨_, _, rfl⟩

theorem Spelled.cons {pieces : List (Piece α)} (h : format.Spelled name pieces) (piece : Piece α) :
    format.Spelled name (piece :: pieces) :=
  List.infix_cons h

theorem token_mem_put {pieces : List (Piece α)}
    (h : .token name ∈ pieces.flatMap (put value)) : .token name ∈ pieces := by
  obtain ⟨piece, hmem, hput⟩ := List.mem_flatMap.mp h
  cases piece with
  | char c => simp [TokenFormat.put] at hput
  | token other =>
    rw [TokenFormat.put] at hput
    split at hput
    · simp at hput
    · rw [List.mem_singleton.mp hput]
      exact hmem

/-- Where the text of the pieces goes on with a name and the closing delimiter, characters spell
them: a token would open with the other delimiter first. -/
theorem chars_of_isPrefix_text {names : List α} (hleft : format.left ∉ names)
    {pieces : List (Piece α)} (h : names <+: pieces.flatMap format.text) :
    names.map Piece.char <+: pieces := by
  induction names generalizing pieces with
  | nil => exact List.nil_prefix
  | cons c names ih =>
    cases pieces with
    | nil => simp at h
    | cons piece pieces =>
      cases piece with
      | char c' =>
        rw [List.flatMap_cons, text, List.singleton_append, List.cons_prefix_cons] at h
        obtain ⟨rfl, hrest⟩ := h
        rw [List.map_cons, List.cons_prefix_cons]
        exact ⟨rfl, ih (fun hmem ↦ hleft (List.mem_cons_of_mem _ hmem)) hrest⟩
      | token other =>
        rw [List.flatMap_cons, text, token, List.cons_append, List.cons_prefix_cons] at h
        exact absurd (h.1 ▸ List.mem_cons_self) hleft

/-- A token at a character is spelled by characters. -/
theorem spelled_of_isPrefix_text (hname : format.isName name = true) {c : α}
    {pieces : List (Piece α)} (h : format.token name <+: c :: pieces.flatMap format.text) :
    format.Spelled name (.char c :: pieces) := by
  rw [token, List.cons_prefix_cons] at h
  obtain ⟨rfl, hrest⟩ := h
  apply List.IsPrefix.isInfix
  rw [token, List.map_cons, List.cons_prefix_cons]
  exact ⟨rfl, chars_of_isPrefix_text (left_notMem_name_right hname) hrest⟩

end Put

end TokenFormat

end SlamSystemManager.Template
