import SlamSystemManager.Library.Template
import SlamSystemManager.ProcessManager

/-!
# Expanding a command

`expandCommand` replaces the tokens of one name after the other, in the order in which the map is
iterated, and looks for tokens that are left in the result. Against it stands the substitution of
all values at once in the template alone.
-/

namespace SlamSystemManager.ProcessManager

open Template TokenFormat

/-- The tokens of a command, as the search for unresolved ones describes them. -/
def commandTokens : TokenFormat Char where
  left := '\x7b'
  right := '\x7d'
  head := isIdentifierHead
  tail := isIdentifierTail
  left_ne_right := by decide
  head_left := by decide
  tail_left := by decide
  head_right := by decide
  tail_right := by decide

/-- `^[A-Za-z_][A-Za-z0-9_]*$`. -/
def validSubstitutionName (name : String) : Bool := commandTokens.isName name.toList

/-- A map of substitutions: the names of the configuration are checked, those of the adapters are
fixed. -/
structure SubstitutionMap where
  bindings : List (String × String)
  nodup : (bindings.map Prod.fst).Nodup
  valid : ∀ binding ∈ bindings, validSubstitutionName binding.1 = true

/-- The map of a start, where the substitutions it is given replace the defaults of the process. -/
def SubstitutionMap.merge (defaults given : SubstitutionMap) : SubstitutionMap where
  bindings := mergeSubstitutions defaults.bindings given.bindings
  nodup := by
    unfold mergeSubstitutions
    rw [List.map_append, List.nodup_append']
    refine ⟨defaults.nodup.sublist (List.Sublist.map _ List.filter_sublist), given.nodup, ?_⟩
    intro name hdefault hgiven
    obtain ⟨default, hmem, rfl⟩ := List.mem_map.mp hdefault
    obtain ⟨binding, hbinding, hname⟩ := List.mem_map.mp hgiven
    have hnone := (List.mem_filter.mp hmem).2
    rw [Option.isNone_iff_eq_none, List.lookup_eq_none_iff] at hnone
    have hne : ¬ default.1 = binding.1 := by simpa using hnone binding hbinding
    exact hne hname.symm
  valid := by
    intro binding hmem
    rcases List.mem_append.mp hmem with hdefault | hgiven
    · exact defaults.valid binding (List.mem_of_mem_filter hdefault)
    · exact given.valid binding hgiven

/-- The value a map has for the name of a token. -/
def valueOf (bindings : List (String × String)) (name : List Char) : Option (List Char) :=
  (bindings.lookup (String.ofList name)).map String.toList

/-- The template has a token whose name is not bound. -/
def Unbound (command : String) (substitutions : SubstitutionMap) : Prop :=
  ∃ name, commandTokens.isName name = true ∧ commandTokens.token name <:+: command.toList ∧
    valueOf substitutions.bindings name = none

/-- The template with all tokens replaced at once, and the values taken literally. -/
def substituted (command : String) (substitutions : SubstitutionMap) : List Char :=
  commandTokens.fill (valueOf substitutions.bindings) command.toList

/-- Whatever the order of the iteration, the expansion is refused exactly when a token of the
template is unbound, and is the simultaneous substitution where it is not. -/
structure Simultaneous (command : String) (substitutions : SubstitutionMap) : Prop where
  refused_iff : ∀ order, order.Perm substitutions.bindings →
    ((∃ what, expandCommand command order = .error what) ↔ Unbound command substitutions)
  expanded : ∀ order result, order.Perm substitutions.bindings →
    expandCommand command order = .ok result →
      result = String.ofList (substituted command substitutions)

/-- Values and the text of the template around them make no token. -/
def NoNewToken (command : String) (substitutions : SubstitutionMap) : Prop :=
  ∀ name, commandTokens.isName name = true →
    ¬ commandTokens.token name <:+: substituted command substitutions

/-! ## Tokens left in a text -/

theorem unresolvedAt_eq (text : List Char) :
    unresolvedAt text = (commandTokens.nameAt text).map commandTokens.token := by
  match text with
  | [] => rfl
  | [first] => by_cases h : first = '\x7b' <;> simp [unresolvedAt, nameAt, h]
  | first :: second :: rest =>
    by_cases hfirst : first = '\x7b'
    · subst hfirst
      by_cases hhead : isIdentifierHead second = true
      · by_cases hright :
          rest[(rest.takeWhile isIdentifierTail).length]? = some '\x7d'
        · simp [unresolvedAt, nameAt, commandTokens, token, hhead, hright]
        · simp [unresolvedAt, nameAt, commandTokens, hhead, hright]
      · simp [unresolvedAt, nameAt, commandTokens, hhead]
    · simp [unresolvedAt, nameAt, commandTokens, hfirst]

/-- The search finds a token when there is one. -/
theorem unresolved?_eq_none_iff (text : List Char) :
    unresolved? text = none ↔
      ∀ name, commandTokens.isName name = true → ¬ commandTokens.token name <:+: text := by
  induction text with
  | nil => simp [unresolved?, token]
  | cons c rest ih =>
    rw [unresolved?, unresolvedAt_eq]
    cases hat : commandTokens.nameAt (c :: rest) with
    | some name =>
      obtain ⟨hname, hstart⟩ := nameAt_eq_some.mp hat
      simp only [Option.map_some, Option.orElse_some, reduceCtorEq, false_iff, not_forall, not_not]
      exact ⟨name, hname, hstart.isInfix⟩
    | none =>
      rw [Option.map_none, Option.orElse_none, ih]
      constructor
      · intro hrest name hname hinfix
        rcases List.infix_cons_iff.mp hinfix with hstart | hlater
        · have hsome := nameAt_eq_some.mpr ⟨hname, hstart⟩
          rw [hat] at hsome
          cases hsome
        · exact hrest name hname hlater
      · intro hall name hname hinfix
        exact hall name hname (List.infix_cons hinfix)

/-! ## Replacing one token -/

section Replace

variable {name value : List Char}

theorem replaceAll_skip (token value : List Char) (skip : ℕ) (text : List Char) :
    replaceAll token value skip text = replaceAll token value 0 (text.drop skip) := by
  induction skip generalizing text with
  | zero => rfl
  | succ skip ih =>
    cases text with
    | nil => rfl
    | cons c rest => exact ih rest

theorem replaceAll_token (name value rest : List Char) :
    replaceAll (commandTokens.token name) value 0 (commandTokens.token name ++ rest) =
      value ++ replaceAll (commandTokens.token name) value 0 rest := by
  have hstart :
      (commandTokens.token name).isPrefixOf (commandTokens.token name ++ rest) = true := by
    rw [List.isPrefixOf_iff_prefix]
    exact List.prefix_append _ _
  rw [token_append] at hstart ⊢
  rw [replaceAll, if_pos hstart, replaceAll_skip, length_token]
  congr 2
  simp [List.drop_append]

/-- No token begins at a character that is no opening delimiter. -/
theorem replaceAll_append_of_notMem {before : List Char} (hleft : commandTokens.left ∉ before)
    (name value rest : List Char) :
    replaceAll (commandTokens.token name) value 0 (before ++ rest) =
      before ++ replaceAll (commandTokens.token name) value 0 rest := by
  induction before with
  | nil => rfl
  | cons c before ih =>
    have hstart : (commandTokens.token name).isPrefixOf (c :: (before ++ rest)) = false := by
      rw [← Bool.not_eq_true, List.isPrefixOf_iff_prefix, token, List.cons_prefix_cons]
      rintro ⟨rfl, _⟩
      exact hleft List.mem_cons_self
    rw [List.cons_append, replaceAll, if_neg (by simp [hstart]),
      ih fun hmem ↦ hleft (List.mem_cons_of_mem _ hmem)]
    rfl

theorem replaceAll_token_of_ne {other : List Char} (hname : commandTokens.isName name = true)
    (hother : commandTokens.isName other = true) (hne : other ≠ name) (value rest : List Char) :
    replaceAll (commandTokens.token name) value 0 (commandTokens.token other ++ rest) =
      commandTokens.token other ++ replaceAll (commandTokens.token name) value 0 rest := by
  have hstart : (commandTokens.token name).isPrefixOf
      (commandTokens.token other ++ rest) = false := by
    rw [← Bool.not_eq_true, List.isPrefixOf_iff_prefix]
    intro hprefix
    exact hne (eq_of_token_isPrefix hother hname hprefix).symm
  have hcons : commandTokens.token other ++ rest =
      commandTokens.left :: ((other ++ [commandTokens.right]) ++ rest) := rfl
  rw [hcons] at hstart ⊢
  rw [replaceAll, if_neg (by rw [hstart]; exact Bool.false_ne_true),
    replaceAll_append_of_notMem (left_notMem_name_right hother)]
  rfl

/-- One name with its value. -/
def only (name value : List Char) : List Char → Option (List Char) := fun other ↦
  if other = name then some value else none

/-- A token that characters do not spell is replaced where it stands as a piece, and nowhere
else. -/
theorem replaceAll_text (hname : commandTokens.isName name = true) (value : List Char)
    {pieces : List (Piece Char)}
    (hnames : ∀ other, .token other ∈ pieces → commandTokens.isName other = true)
    (hspelled : ¬ commandTokens.Spelled name pieces) :
    replaceAll (commandTokens.token name) value 0 (pieces.flatMap commandTokens.text) =
      (pieces.flatMap (put (only name value))).flatMap commandTokens.text := by
  induction pieces with
  | nil => rfl
  | cons piece pieces ih =>
    have hrest := ih (fun other hmem ↦ hnames other (List.mem_cons_of_mem _ hmem))
      fun hlater ↦ hspelled (hlater.cons piece)
    cases piece with
    | char c =>
      have hstart : (commandTokens.token name).isPrefixOf
          (c :: pieces.flatMap commandTokens.text) = false := by
        rw [← Bool.not_eq_true, List.isPrefixOf_iff_prefix]
        exact fun hprefix ↦ hspelled (spelled_of_isPrefix_text hname hprefix)
      rw [List.flatMap_cons, text, List.singleton_append, replaceAll, if_neg (by simp [hstart]),
        hrest]
      rfl
    | token other =>
      rw [List.flatMap_cons, text, List.flatMap_cons, List.flatMap_append]
      by_cases hsame : other = name
      · subst hsame
        rw [replaceAll_token, hrest]
        simp [put, only, flatMap_text_chars]
      · rw [replaceAll_token_of_ne hname (hnames other List.mem_cons_self) hsame, hrest]
        simp [put, only, hsame, text]

/-- A token with another name stays in the text. -/
theorem token_isInfix_replaceAll {other : List Char} (hname : commandTokens.isName name = true)
    (hother : commandTokens.isName other = true) (hne : other ≠ name)
    (value before after : List Char)
    {skip : ℕ} (hskip : skip ≤ before.length) :
    commandTokens.token other <:+:
      replaceAll (commandTokens.token name) value skip
        (before ++ commandTokens.token other ++ after) := by
  induction before generalizing skip with
  | nil =>
    obtain rfl := Nat.le_zero.mp hskip
    rw [List.nil_append, replaceAll_token_of_ne hname hother hne]
    exact (List.prefix_append _ _).isInfix
  | cons c before ih =>
    cases skip with
    | succ skip => exact ih (by simpa using hskip)
    | zero =>
      rw [List.cons_append, List.cons_append, replaceAll]
      by_cases hstart : (commandTokens.token name).isPrefixOf
          (c :: (before ++ commandTokens.token other ++ after)) = true
      · rw [if_pos hstart]
        have hfits := length_le_of_token_isPrefix hname (List.cons_ne_nil c before)
          (List.isPrefixOf_iff_prefix.mp hstart)
        rw [length_token, List.length_cons] at hfits
        exact List.infix_append_of_infix_right (ih (by rw [length_token]; omega))
      · rw [if_neg hstart]
        exact List.infix_cons (ih (Nat.zero_le _))

end Replace

/-! ## The whole expansion -/

section Expansion

theorem valueOf_cons (name value : String) (rest : List (String × String)) :
    valueOf ((name, value) :: rest) =
      fun other ↦ (only name.toList value.toList other).or (valueOf rest other) := by
  funext other
  unfold valueOf only
  rw [List.lookup_cons]
  by_cases hsame : other = name.toList
  · simp [hsame]
  · have hne : (String.ofList other == name) = false := by
      rw [beq_eq_false_iff_ne]
      rintro rfl
      exact hsame (by simp)
    simp [hsame, hne]

theorem valueOf_eq_some_of_mem {bindings : List (String × String)}
    (hnodup : (bindings.map Prod.fst).Nodup) {name value : String} (h : (name, value) ∈ bindings) :
    valueOf bindings name.toList = some value.toList := by
  have hlookup : bindings.lookup name = some value := by
    induction bindings with
    | nil => cases h
    | cons binding bindings ih =>
      rw [List.map_cons, List.nodup_cons] at hnodup
      rw [List.lookup_cons]
      rcases List.mem_cons.mp h with rfl | hmem
      · simp
      · have hne : (name == binding.1) = false := by
          rw [beq_eq_false_iff_ne]
          intro heq
          exact hnodup.1 (heq ▸ List.mem_map_of_mem hmem)
        rw [hne]
        exact ih hnodup.2 hmem
  simp [valueOf, hlookup]

theorem mem_of_valueOf {bindings : List (String × String)} {name value : List Char}
    (h : valueOf bindings name = some value) :
    (String.ofList name, String.ofList value) ∈ bindings := by
  obtain ⟨text, hlookup, rfl⟩ := Option.map_eq_some_iff.mp h
  obtain ⟨before, after, rfl, _⟩ := List.lookup_eq_some_iff.mp hlookup
  simp

/-- The order of the iteration does not matter for the values. -/
theorem valueOf_perm {order bindings : List (String × String)} (h : order.Perm bindings)
    (hnodup : (bindings.map Prod.fst).Nodup) : valueOf order = valueOf bindings := by
  funext name
  have hnodup' : (order.map Prod.fst).Nodup := (h.map Prod.fst).nodup_iff.mpr hnodup
  cases hvalue : valueOf bindings name with
  | some value =>
    have hmem := h.mem_iff.mpr (mem_of_valueOf hvalue)
    simpa using valueOf_eq_some_of_mem hnodup' hmem
  | none =>
    cases hother : valueOf order name with
    | none => rfl
    | some value =>
      have hmem := h.mem_iff.mp (mem_of_valueOf hother)
      have hsome := valueOf_eq_some_of_mem hnodup hmem
      rw [String.toList_ofList, hvalue] at hsome
      cases hsome

theorem lookup_filter_fst (keeps : String → Bool) (bindings : List (String × String))
    (name : String) :
    (bindings.filter fun binding ↦ keeps binding.1).lookup name =
      if keeps name then bindings.lookup name else none := by
  induction bindings with
  | nil => simp
  | cons binding bindings ih =>
    by_cases hkeeps : keeps binding.1 = true
    · rw [List.filter_cons, if_pos hkeeps, List.lookup_cons, List.lookup_cons, ih]
      cases hsame : name == binding.1 with
      | true => simp [eq_of_beq hsame, hkeeps]
      | false => rfl
    · rw [List.filter_cons, if_neg hkeeps, ih, List.lookup_cons]
      cases hsame : name == binding.1 with
      | true => simp [eq_of_beq hsame, hkeeps]
      | false => rfl

/-- A value that is given stands before the default. -/
theorem valueOf_merge (defaults given : SubstitutionMap) (name : List Char) :
    valueOf (defaults.merge given).bindings name =
      (valueOf given.bindings name).or (valueOf defaults.bindings name) := by
  have hlookup : (defaults.merge given).bindings.lookup (String.ofList name) =
      (given.bindings.lookup (String.ofList name)).or
        (defaults.bindings.lookup (String.ofList name)) := by
    unfold SubstitutionMap.merge mergeSubstitutions
    rw [List.lookup_append, lookup_filter_fst fun key ↦ (given.bindings.lookup key).isNone]
    cases given.bindings.lookup (String.ofList name) <;> simp
  calc
    valueOf (defaults.merge given).bindings name =
        ((given.bindings.lookup (String.ofList name)).or
          (defaults.bindings.lookup (String.ofList name))).map String.toList := by
      rw [valueOf, hlookup]
    _ = (valueOf given.bindings name).or (valueOf defaults.bindings name) := by
      rw [Option.map_or, valueOf, valueOf]

/-- The text after the replacements of `expandCommand`. -/
def replaceInOrder (order : List (String × String)) (text : List Char) : List Char :=
  order.foldl
    (fun text substitution ↦
      replaceAll ('\x7b' :: substitution.1.toList ++ ['\x7d']) substitution.2.toList 0 text) text

theorem replaceInOrder_cons (name value : String) (rest : List (String × String))
    (text : List Char) :
    replaceInOrder ((name, value) :: rest) text =
      replaceInOrder rest (replaceAll (commandTokens.token name.toList) value.toList 0 text) :=
  rfl

/-- Where no token is spelled in the end, none is replaced that is no piece of the template: what
characters spell would have stayed. -/
theorem replaceInOrder_text {order : List (String × String)}
    (hvalid : ∀ binding ∈ order, validSubstitutionName binding.1 = true)
    (pieces : List (Piece Char))
    (hnames : ∀ name, .token name ∈ pieces → commandTokens.isName name = true)
    (hspelled : ∀ name, commandTokens.isName name = true →
      ¬ commandTokens.Spelled name (pieces.flatMap (put (valueOf order)))) :
    replaceInOrder order (pieces.flatMap commandTokens.text) =
      (pieces.flatMap (put (valueOf order))).flatMap commandTokens.text := by
  induction order generalizing pieces with
  | nil =>
    have hkept : put (valueOf []) = fun piece : Piece Char ↦ [piece] := by
      funext piece
      cases piece <;> rfl
    rw [hkept, List.flatMap_singleton']
    rfl
  | cons binding order ih =>
    obtain ⟨name, value⟩ := binding
    have hname : commandTokens.isName name.toList = true := hvalid _ List.mem_cons_self
    have hrest : (pieces.flatMap (put (only name.toList value.toList))).flatMap
        (put (valueOf order)) = pieces.flatMap (put (valueOf ((name, value) :: order))) := by
      rw [put_put, valueOf_cons]
    have hnow : ¬ commandTokens.Spelled name.toList pieces :=
      fun hearly ↦ hspelled name.toList hname (hearly.put _)
    rw [replaceInOrder_cons, replaceAll_text hname _ hnames hnow,
      ih (fun binding hmem ↦ hvalid binding (List.mem_cons_of_mem _ hmem)) _
        (fun other hmem ↦ hnames other (token_mem_put hmem)) (by rwa [hrest]), hrest]

/-- The token of an unbound name survives every replacement. -/
theorem token_isInfix_replaceInOrder {name : List Char} (hname : commandTokens.isName name = true)
    {order : List (String × String)}
    (hvalid : ∀ binding ∈ order, validSubstitutionName binding.1 = true)
    (hunbound : valueOf order name = none) {text : List Char}
    (htext : commandTokens.token name <:+: text) :
    commandTokens.token name <:+: replaceInOrder order text := by
  induction order generalizing text with
  | nil => exact htext
  | cons binding order ih =>
    obtain ⟨bound, value⟩ := binding
    rw [valueOf_cons, Option.or_eq_none_iff] at hunbound
    have hne : name ≠ bound.toList := by
      rintro rfl
      simp [only] at hunbound
    obtain ⟨before, after, rfl⟩ := htext
    rw [replaceInOrder_cons]
    exact ih (fun binding hmem ↦ hvalid binding (List.mem_cons_of_mem _ hmem)) hunbound.2
      (token_isInfix_replaceAll (hvalid _ List.mem_cons_self) hname hne _ before after
        (Nat.zero_le _))

theorem expandCommand_eq (command : String) (order : List (String × String)) :
    expandCommand command order =
      match unresolved? (replaceInOrder order command.toList) with
      | some token => .error ("Missing command substitution for token: " ++ String.ofList token)
      | none => .ok (String.ofList (replaceInOrder order command.toList)) :=
  rfl

theorem expandCommand_eq_ok {command result : String} {order : List (String × String)} :
    expandCommand command order = .ok result ↔
      unresolved? (replaceInOrder order command.toList) = none ∧
        result = String.ofList (replaceInOrder order command.toList) := by
  rw [expandCommand_eq]
  cases unresolved? (replaceInOrder order command.toList) with
  | some token => simp
  | none => simp [eq_comm]

variable {command : String} {substitutions : SubstitutionMap}

theorem expandCommand_of_unbound (h : Unbound command substitutions)
    {order : List (String × String)} (horder : order.Perm substitutions.bindings) :
    ∃ what, expandCommand command order = .error what := by
  obtain ⟨name, hname, hmem, hunbound⟩ := h
  rw [← valueOf_perm horder substitutions.nodup] at hunbound
  have hleft := token_isInfix_replaceInOrder hname
    (fun binding hmem ↦ substitutions.valid binding (horder.mem_iff.mp hmem)) hunbound hmem
  rw [expandCommand_eq]
  cases hfound : unresolved? (replaceInOrder order command.toList) with
  | some token => exact ⟨_, rfl⟩
  | none => exact absurd hleft ((unresolved?_eq_none_iff _).mp hfound name hname)

theorem expandCommand_of_noNewToken (h : NoNewToken command substitutions)
    {order : List (String × String)} (horder : order.Perm substitutions.bindings) :
    expandCommand command order = .ok (String.ofList (substituted command substitutions)) := by
  have hvalues := valueOf_perm horder substitutions.nodup
  have hreplaced : replaceInOrder order command.toList = substituted command substitutions := by
    have htext := replaceInOrder_text
      (fun binding hmem ↦ substitutions.valid binding (horder.mem_iff.mp hmem))
      (commandTokens.pieces 0 command.toList)
      (fun name hmem ↦ isName_of_mem_pieces 0 hmem)
      (by
        intro name hname hspelled
        rw [hvalues] at hspelled
        exact h name hname hspelled.isInfix_text)
    rw [flatMap_text_pieces, hvalues] at htext
    exact htext
  rw [expandCommand_eq_ok, hreplaced]
  exact ⟨(unresolved?_eq_none_iff _).mpr h, rfl⟩

end Expansion

/-- The expansion of a command is the simultaneous substitution exactly where it has to be refused
anyway, or where the values and the text around them make no token. -/
theorem simultaneous_iff (command : String) (substitutions : SubstitutionMap) :
    Simultaneous command substitutions ↔
      Unbound command substitutions ∨ NoNewToken command substitutions := by
  constructor
  · intro h
    by_cases hunbound : Unbound command substitutions
    · exact Or.inl hunbound
    · right
      cases hresult : expandCommand command substitutions.bindings with
      | error what =>
        exact absurd ((h.refused_iff _ (List.Perm.refl _)).mp ⟨what, hresult⟩) hunbound
      | ok result =>
        have hsame := h.expanded _ _ (List.Perm.refl _) hresult
        obtain ⟨hresolved, rfl⟩ := expandCommand_eq_ok.mp hresult
        rw [String.ofList_inj] at hsame
        rw [hsame] at hresolved
        exact (unresolved?_eq_none_iff _).mp hresolved
  · rintro (hunbound | hnew)
    · constructor
      · exact fun order horder ↦
          iff_of_true (expandCommand_of_unbound hunbound horder) hunbound
      · intro order result horder hresult
        obtain ⟨what, herror⟩ := expandCommand_of_unbound hunbound horder
        rw [hresult] at herror
        cases herror
    · constructor
      · intro order horder
        constructor
        · rintro ⟨what, herror⟩
          rw [expandCommand_of_noNewToken hnew horder] at herror
          cases herror
        · intro hunbound
          exact expandCommand_of_unbound hunbound horder
      · intro order result horder hresult
        rw [expandCommand_of_noNewToken hnew horder] at hresult
        cases hresult
        rfl

/-- Values without an opening brace make no token of a template that has them in its tokens only. -/
theorem noNewToken_of_plain {command : String} {substitutions : SubstitutionMap}
    (hbound : ¬ Unbound command substitutions)
    (hvalues : ∀ binding ∈ substitutions.bindings, commandTokens.left ∉ binding.2.toList)
    (hchars : .char commandTokens.left ∉ commandTokens.pieces 0 command.toList) :
    NoNewToken command substitutions := by
  intro name hname hinfix
  have hleft : commandTokens.left ∈ substituted command substitutions :=
    hinfix.subset List.mem_cons_self
  obtain ⟨piece, hpiece, htext⟩ := List.mem_flatMap.mp hleft
  obtain ⟨source, hsource, hput⟩ := List.mem_flatMap.mp hpiece
  cases source with
  | char c =>
    rw [put, List.mem_singleton] at hput
    subst hput
    rw [text, List.mem_singleton] at htext
    exact hchars (htext ▸ hsource)
  | token other =>
    have hother := isName_of_mem_pieces 0 hsource
    cases hvalue : valueOf substitutions.bindings other with
    | none => exact hbound ⟨other, hother, (mem_pieces_iff hother).mp hsource, hvalue⟩
    | some value =>
      simp only [put, hvalue] at hput
      obtain ⟨c, hc, rfl⟩ := List.mem_map.mp hput
      rw [text, List.mem_singleton] at htext
      exact hvalues _ (mem_of_valueOf hvalue) (by rwa [String.toList_ofList, htext])

/-- A start whose command has a token that neither the defaults nor the given values bind starts
nothing. -/
theorem startProcess_of_unbound {s : Shared} {name : String} {record : ProcessRecord}
    (hfind : s.table.find? name = some record) {defaults given : SubstitutionMap}
    (hdefaults : record.config.substitutions = defaults.bindings)
    (hunbound : ∃ token, commandTokens.isName token = true ∧
      commandTokens.token token <:+: record.config.command.toList ∧
      valueOf given.bindings token = none ∧ valueOf defaults.bindings token = none)
    {fault : Option Posix.WaitFault} (hidle : (s.refresh name fault).2 = false)
    {order : List (String × String)} (horder : order.Perm (defaults.merge given).bindings)
    (forked : ForkResult) :
    ∃ what, startProcess s name ⟨given.bindings, order⟩ fault forked =
      some ((s.refresh name fault).1, .error what) := by
  have hmerged : Unbound record.config.command (defaults.merge given) := by
    obtain ⟨token, htoken, hmem, hgiven, hdefault⟩ := hunbound
    refine ⟨token, htoken, hmem, ?_⟩
    rw [valueOf_merge, hgiven, hdefault]
    rfl
  obtain ⟨what, herror⟩ := expandCommand_of_unbound hmerged horder
  refine ⟨what, ?_⟩
  have hpermuted :
      order.Perm (mergeSubstitutions record.config.substitutions given.bindings) := by
    rw [hdefaults]
    exact horder
  unfold startProcess
  simp only [hfind, hidle, Bool.false_eq_true, if_false, if_pos hpermuted, herror]

/-- A value that spells the token of the other name. -/
def crossed : SubstitutionMap where
  bindings := [("a", "\x7bb\x7d"), ("b", "x")]
  nodup := by decide
  valid := by decide

/-- The one order replaces what a value has brought in, the other is refused for it. -/
theorem expandCommand_crossed :
    expandCommand "\x7ba\x7d" [("a", "\x7bb\x7d"), ("b", "x")] = .ok "x" ∧
      expandCommand "\x7ba\x7d" [("b", "x"), ("a", "\x7bb\x7d")] =
        .error "Missing command substitution for token: \x7bb\x7d" ∧
      String.ofList (substituted "\x7ba\x7d" crossed) = "\x7bb\x7d" ∧
      ¬ Simultaneous "\x7ba\x7d" crossed := by
  have hfirst : expandCommand "\x7ba\x7d" [("a", "\x7bb\x7d"), ("b", "x")] = .ok "x" := rfl
  have hfilled : String.ofList (substituted "\x7ba\x7d" crossed) = "\x7bb\x7d" := rfl
  refine ⟨hfirst, rfl, hfilled, ?_⟩
  intro h
  have hsame := h.expanded _ _ (List.Perm.refl _) hfirst
  rw [hfilled] at hsame
  revert hsame
  decide

end SlamSystemManager.ProcessManager
