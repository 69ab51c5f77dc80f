/-
The text of an expression tells its tokens (`matches_of_render_eq`). A text is
read from the left: up to the first parenthesis, comma or blank stands a word,
and the character after it tells a name or a number from the name of a
function. After an opening parenthesis stands the symbol of an operator with
one operand or the text of the first of two. Both can begin with a minus sign,
if that operand is a negative number; then the operands end differently.

Two trees are read side by side, with any rests behind their texts
(`chars_inj`).
-/
import Mathlib.Data.List.Forall2
import ReversePolish.Operation.Definition
import ReversePolish.Proofs.Listing
import ReversePolish.Proofs.Number.Double

namespace ReversePolish

/-! ## Tokens that can be read -/

namespace Token

/-- The tokens that are told apart in a text: finite numbers, names as functions have them,
operators whose symbols have one character, and functions. Whatever is defined has been made. -/
def Legible : Token → Prop
  | .number x => Binary64.IsFinite x
  | .name n => isFunctionName n = true
  | .operation (.operator (.builtin _)) => True
  | .operation (.operator (.defined d)) => (∃ c, d.symbol.toList = [c]) ∧
      ∃ serial symbol operands leftAssociative precedence kernel,
        OperatorDefinition.make serial symbol operands leftAssociative precedence kernel = .ok d
  | .operation (.function (.builtin _)) => True
  | .operation (.function (.defined d)) => ∃ serial name arguments kernel,
      FunctionDefinition.make serial name arguments kernel = .ok d

/-- Equal numbers, the same name, or operations of the same kind, name and count. -/
def Matches : Token → Token → Prop
  | .number x, .number y => (x == y) = true
  | .name m, .name n => m = n
  | .operation op, .operation op' => op.kind = op'.kind ∧ op.name = op'.name ∧ op.arity = op'.arity
  | _, _ => False

theorem Legible.symbol {o : Operator} (h : Legible (.operation (.operator o))) :
    ∃ c, o.symbol.toList = [c] ∧ isOperatorChar c = true := by
  cases o with
  | builtin o => cases o <;> exact ⟨_, rfl, rfl⟩
  | defined d =>
    obtain ⟨⟨c, single⟩, serial, symbol, operands, left, precedence, kernel, made⟩ := h
    refine ⟨c, single, ?_⟩
    unfold OperatorDefinition.make at made
    split at made
    · split at made
      · cases made
      · split at made
        · cases made
        next allowed =>
          split at made
          next =>
            cases made
            simp only [Bool.not_eq_true, Bool.not_eq_false'] at allowed
            exact List.all_eq_true.mp allowed c (single ▸ List.mem_singleton_self c)
          next => cases made
    · cases made

theorem Legible.functionName {f : Function} (h : Legible (.operation (.function f))) :
    isFunctionName f.name = true := by
  cases f with
  | builtin f => cases f <;> decide
  | defined d =>
    obtain ⟨serial, name, arguments, kernel, made⟩ := h
    unfold FunctionDefinition.make at made
    split at made
    · split at made
      · cases made
      next text allowed =>
        have valid : isFunctionName text = true := by simpa using allowed
        split at made
        next => cases made; exact valid
        next => cases made
    · cases made

end Token

/-! ## Words -/

/-- The characters of names and numbers: all but those that stand around them. -/
def isWordChar (c : Char) : Bool := !(['(', ')', ',', ' '].contains c)

def Ends (cs : List Char) : Prop := ∀ c ∈ cs.head?, isWordChar c = false

/-- Names, numbers and the names of functions are words. -/
structure IsWord (w : List Char) : Prop where
  chars : ∀ c ∈ w, isWordChar c = true
  filled : w ≠ []

/-- The first word of a text is where the next word characters end. -/
theorem word_unique {w w' r r' : List Char} (hw : ∀ c ∈ w, isWordChar c = true)
    (hw' : ∀ c ∈ w', isWordChar c = true) (hr : Ends r) (hr' : Ends r')
    (h : w ++ r = w' ++ r') : w = w' ∧ r = r' := by
  obtain ⟨taken, dropped⟩ := Numeral.span_append hw hr
  obtain ⟨taken', dropped'⟩ := Numeral.span_append hw' hr'
  rw [h] at taken dropped
  exact ⟨taken.symm.trans taken', dropped.symm.trans dropped'⟩

theorem isWordChar_or (c : Char) :
    isWordChar c = true ∨ c = '(' ∨ c = ')' ∨ c = ',' ∨ c = ' ' := by
  simp only [isWordChar, List.contains_cons, List.contains_nil, Bool.not_eq_true',
    Bool.or_eq_false_iff, beq_eq_false_iff_ne]
  tauto

theorem isWordChar_of_numeral {c : Char} (h : Numeral.isNumeralChar c = true) :
    isWordChar c = true := by
  rcases isWordChar_or c with word | rfl | rfl | rfl | rfl
  · exact word
  all_goals cases h

theorem isWordChar_of_name {c : Char} (h : isNameChar c = true) : isWordChar c = true := by
  rcases isWordChar_or c with word | rfl | rfl | rfl | rfl
  · exact word
  all_goals exact absurd h (by decide)

theorem word_of_isFunctionName {s : String} (h : isFunctionName s = true) :
    IsWord s.toList ∧ ∃ c rest, s.toList = c :: rest ∧ isNameStart c = true := by
  unfold isFunctionName at h
  split at h
  next => cases h
  next c rest hs =>
    obtain ⟨start, others⟩ := Bool.and_eq_true_iff.mp h
    have first : isNameChar c = true := by
      have start := Bool.or_eq_true_iff.mp start
      unfold isNameChar
      rcases start with letter | underscore
      · rw [letter, Bool.true_or, Bool.true_or]
      · rw [underscore, Bool.or_true]
    refine ⟨⟨fun d hd => ?_, by simp [hs]⟩, c, rest, hs, start⟩
    rw [hs] at hd
    rcases List.mem_cons.mp hd with rfl | hd
    · exact isWordChar_of_name first
    · exact isWordChar_of_name (List.all_eq_true.mp others d hd)

/-- The text of a number is a word that begins with a digit, or with a minus sign and a digit. -/
theorem word_of_number {x : Float} (h : Binary64.IsFinite x) :
    IsWord (Rendering.number x).toList ∧ ∃ negative cs,
      (Rendering.number x).toList = Numeral.sign negative ++ cs ∧ Numeral.Unsigned cs := by
  obtain ⟨negative, size, hx⟩ := h
  obtain ⟨cs, d, text, unsigned, -, -⟩ := Rendering.number_eq hx (Binary64.canonical_ofFloat hx)
  refine ⟨⟨fun c hc => isWordChar_of_numeral ?_, ?_⟩, _, cs, text, unsigned⟩
  · exact Numeral.chars_sign unsigned.chars _ c (text ▸ hc)
  · obtain ⟨first, rest, rfl, -⟩ := unsigned.digit
    rw [text]
    exact List.append_ne_nil_of_right_ne_nil _ (List.cons_ne_nil first rest)

/-! ## First characters -/

theorem isNameStart_digit {c : Char} (h : c.isDigit = true) : isNameStart c = false := by
  have code := Numeral.toNat_of_isDigit h
  have letter : isLetter c = false := if_pos (show c.toNat < 65 by omega)
  have underscore : (c == '_') = false := beq_eq_false_iff_ne.mpr (by rintro rfl; cases h)
  rw [isNameStart, letter, underscore]
  rfl

/-- No operator character begins a name or a number without a sign, or is a parenthesis. -/
theorem isOperatorChar_apart {c : Char} (h : isOperatorChar c = true) :
    isNameStart c = false ∧ c.isDigit = false ∧ c ≠ '(' := by
  have all : operatorChars.all fun c => !isNameStart c && !c.isDigit && c != '(' := by
    decide +kernel
  have apart := List.all_eq_true.mp all c (by simpa [isOperatorChar] using h)
  simpa [and_assoc] using apart

/-! ## The text of a tree -/

namespace Rendering

/-- The texts after the first, each with what stands before it. -/
def others : List (List Char) → List Char
  | [] => []
  | a :: rest => ',' :: ' ' :: (a ++ others rest)

def joined : List (List Char) → List Char
  | [] => []
  | a :: rest => a ++ others rest

def applied : Operation → List (List Char) → List Char
  | .operator o, [a] => '(' :: (o.symbol.toList ++ (a ++ [')']))
  | .operator o, a :: b :: _ => '(' :: (a ++ ' ' :: (o.symbol.toList ++ ' ' :: (b ++ [')'])))
  | .operator o, [] => '(' :: (o.symbol.toList ++ [')'])
  | .function f, args => f.name.toList ++ '(' :: (joined args ++ [')'])

theorem intercalate_eq (args : List (List Char)) :
    [',', ' '].intercalate args = joined args := by
  cases args with
  | nil => rfl
  | cons a rest =>
    induction rest generalizing a with
    | nil => simp [joined, others]
    | cons b rest ih =>
      have tail := ih b
      simp only [List.intercalate, List.intersperse_cons_cons, List.flatten_cons, joined,
        others] at tail ⊢
      rw [tail]
      rfl

theorem applied_operator (o : Operator) (args : List (List Char)) :
    ∃ rest, applied (.operator o) args = '(' :: rest := by
  match args with
  | [] => exact ⟨_, rfl⟩
  | [a] => exact ⟨_, rfl⟩
  | a :: b :: rest => exact ⟨_, rfl⟩

theorem application_ofList (op : Operation) (args : List (List Char)) :
    application op (args.map String.ofList) = String.ofList (applied op args) := by
  apply String.toList_injective
  cases op with
  | operator o =>
    match args with
    | [] => simp [application, applied]
    | [a] => simp [application, applied]
    | a :: b :: rest => simp [application, applied]
  | function f => simp [application, applied, intercalate_eq]

end Rendering

namespace Tree
open Rendering

mutual

def chars : Tree → List Char
  | .number x => (Rendering.number x).toList
  | .name n => n.toList
  | .node op args => applied op (charsAll args)

def charsAll : List Tree → List (List Char)
  | [] => []
  | t :: rest => t.chars :: charsAll rest

end

theorem value_rendering (t : Tree) :
    t.value interpretation = .ok (String.ofList t.chars) := by
  induction t using inductionOn with
  | number x => simp [value, interpretation, chars]
  | name n => simp [value, interpretation, chars]
  | node op args ih =>
    have values : valueAll interpretation args = .ok ((charsAll args).map String.ofList) := by
      induction args with
      | nil => rfl
      | cons a rest ihRest =>
        rw [valueAll, ih a (List.mem_cons_self ..),
          ihRest fun b hb => ih b (List.mem_cons_of_mem a hb)]
        rfl
    rw [value, values, chars, ← application_ofList]
    rfl

/-- A well-formed tree of tokens that can be read. -/
structure Legible (t : Tree) : Prop where
  wellFormed : t.WellFormed
  tokens : ∀ u ∈ t.postorder, u.Legible

theorem Legible.args {op : Operation} {args : List Tree} (h : (node op args).Legible) :
    ∀ a ∈ args, a.Legible := fun a ha =>
  ⟨allWellFormed_iff.mp h.wellFormed.2 a ha, fun _ hu => h.tokens _ (mem_postorder_of_mem ha hu)⟩

theorem Legible.operation {op : Operation} {args : List Tree} (h : (node op args).Legible) :
    Token.Legible (.operation op) :=
  h.tokens _ (operation_mem_postorder op args)

/-! ## The first word of a text -/

/-- The word with which the text of a tree begins; that of an operator begins with none. -/
def word : Tree → List Char
  | .number x => (Rendering.number x).toList
  | .name n => n.toList
  | .node (.operator _) _ => []
  | .node (.function f) _ => f.name.toList

/-- What follows that word in the text of a tree with some rest behind it. -/
def afterWord (r : List Char) : Tree → List Char
  | .number _ => r
  | .name _ => r
  | .node (.operator o) args => applied (.operator o) (charsAll args) ++ r
  | .node (.function _) args => '(' :: (joined (charsAll args) ++ ')' :: r)

theorem chars_append (t : Tree) (r : List Char) : t.chars ++ r = t.word ++ t.afterWord r := by
  cases t with
  | number x => rfl
  | name n => rfl
  | node op args =>
    cases op with
    | operator o => rfl
    | function f => simp [chars, applied, word, afterWord]

theorem chars_word {t : Tree} (h : t.Legible) : ∀ c ∈ t.word, isWordChar c = true := by
  cases t with
  | number x => exact (word_of_number (h.tokens _ (List.mem_singleton_self _))).1.chars
  | name n => exact (word_of_isFunctionName (h.tokens _ (List.mem_singleton_self _))).1.chars
  | node op args =>
    cases op with
    | operator o => exact fun c hc => by cases hc
    | function f => exact (word_of_isFunctionName h.operation.functionName).1.chars

/-- What may stand behind the text of a tree: what closes or parts the arguments around it. -/
def Behind (r : List Char) : Prop := ∀ c ∈ r.head?, c = ')' ∨ c = ',' ∨ c = ' '

theorem behind_close (r : List Char) : Behind (')' :: r) := fun c hc => by
  cases hc
  exact .inl rfl

theorem behind_blank (r : List Char) : Behind (' ' :: r) := fun c hc => by
  cases hc
  exact .inr (.inr rfl)

theorem Behind.ends {r : List Char} (h : Behind r) : Ends r := fun c hc => by
  rcases h c hc with rfl | rfl | rfl <;> rfl

theorem Behind.not_open {r cs : List Char} (h : Behind r) : r ≠ '(' :: cs := by
  rintro rfl
  have closing := h '(' rfl
  simp at closing

theorem ends_afterWord (t : Tree) {r : List Char} (h : Behind r) : Ends (t.afterWord r) := by
  cases t with
  | number x => exact h.ends
  | name n => exact h.ends
  | node op args =>
    intro c hc
    cases op with
    | operator o =>
      obtain ⟨rest, opened⟩ := applied_operator o (charsAll args)
      rw [afterWord, opened] at hc
      cases hc
      rfl
    | function f =>
      cases hc
      rfl

/-- Two texts that are the same have one first word, and are the same after it. -/
theorem word_unique {t t' : Tree} (h : t.Legible) (h' : t'.Legible) {r r' : List Char}
    (hr : Behind r) (hr' : Behind r') (same : t.chars ++ r = t'.chars ++ r') :
    t.word = t'.word ∧ t.afterWord r = t'.afterWord r' := by
  rw [chars_append, chars_append] at same
  exact ReversePolish.word_unique (chars_word h) (chars_word h') (ends_afterWord t hr)
    (ends_afterWord t' hr') same

/-! ## The first character of a text -/

/-- The text of a tree begins with a letter, an underscore, a digit or a parenthesis, but for
negative numbers. -/
theorem chars_start {t : Tree} (h : t.Legible) :
    (∃ c rest, t.chars = c :: rest ∧ (isNameStart c = true ∨ c.isDigit = true ∨ c = '(')) ∨
      ∃ cs, t.chars = '-' :: cs ∧ cs ≠ [] ∧ ∀ c ∈ cs, isWordChar c = true := by
  cases t with
  | number x =>
    obtain ⟨word, negative, cs, text, unsigned⟩ :=
      word_of_number (h.tokens _ (List.mem_singleton_self _))
    obtain ⟨c, rest, rfl, digit⟩ := unsigned.digit
    rw [chars, text]
    cases negative with
    | false => exact .inl ⟨c, rest, rfl, .inr (.inl digit)⟩
    | true =>
      exact .inr ⟨c :: rest, rfl, List.cons_ne_nil c rest,
        fun d hd => isWordChar_of_numeral (unsigned.chars d hd)⟩
  | name n =>
    obtain ⟨-, c, rest, text, start⟩ :=
      word_of_isFunctionName (h.tokens _ (List.mem_singleton_self _))
    exact .inl ⟨c, rest, text, .inl start⟩
  | node op args =>
    cases op with
    | operator o =>
      obtain ⟨rest, opened⟩ := applied_operator o (charsAll args)
      exact .inl ⟨'(', rest, opened, .inr (.inr rfl)⟩
    | function f =>
      obtain ⟨-, c, rest, text, start⟩ := word_of_isFunctionName h.operation.functionName
      exact .inl ⟨c, _, by rw [chars, applied, text]; rfl, .inl start⟩

/-- No argument begins with the parenthesis that closes the arguments. -/
theorem chars_ne_close {t : Tree} (h : t.Legible) (r r' : List Char) :
    t.chars ++ r ≠ ')' :: r' := by
  intro same
  rcases chars_start h with ⟨c, rest, text, start⟩ | ⟨cs, text, -, -⟩
  · rw [text] at same
    cases same
    rcases start with name | digit | parenthesis
    · exact absurd name (by decide)
    · cases digit
    · cases parenthesis
  · rw [text] at same
    cases same

/-- A unary operator is not taken for the first operand of a binary one. If that is a negative
number, the operand after the sign ends with a parenthesis in the one text and with a blank in the
other. -/
theorem unary_ne_binary {a a' : Tree} (h : a.Legible) (h' : a'.Legible) {c : Char}
    (symbol : isOperatorChar c = true) (r r' : List Char) :
    c :: (a.chars ++ ')' :: r) ≠ a'.chars ++ ' ' :: r' := by
  intro same
  obtain ⟨name, digit, parenthesis⟩ := isOperatorChar_apart symbol
  rcases chars_start h' with ⟨d, rest, text, start⟩ | ⟨cs, text, filled, word⟩
  · rw [text] at same
    obtain ⟨rfl, -⟩ := List.cons.inj same
    rcases start with start | start | start
    · rw [name] at start; cases start
    · rw [digit] at start; cases start
    · exact parenthesis start
  · rw [text, List.cons_append, List.cons.injEq, chars_append] at same
    obtain ⟨words, rests⟩ := ReversePolish.word_unique (chars_word h) word
      (ends_afterWord a (behind_close r)) (behind_blank r').ends same.2
    cases a with
    | number x => cases rests
    | name n => cases rests
    | node op args =>
      cases op with
      | operator o => exact filled words.symm
      | function f => cases rests

/-! ## Trees of one text -/

/-- Is the tree told by its text, whatever follows that? -/
def ReadUniquely (t : Tree) : Prop :=
  ∀ (t' : Tree) (r r' : List Char), t.Legible → t'.Legible → Behind r → Behind r' →
    t.chars ++ r = t'.chars ++ r' → List.Forall₂ Token.Matches t.postorder t'.postorder ∧ r = r'

theorem behind_others (args : List Tree) (r : List Char) :
    Behind (others (charsAll args) ++ ')' :: r) := by
  cases args with
  | nil => exact behind_close r
  | cons a rest =>
    intro c hc
    cases hc
    exact .inr (.inl rfl)

/-- Arguments up to the closing parenthesis, from some argument on, are told by their text. -/
theorem arguments_unique {a a' : Tree} {rest rest' : List Tree}
    (ih : ∀ b ∈ a :: rest, b.ReadUniquely) (h : ∀ b ∈ a :: rest, b.Legible)
    (h' : ∀ b ∈ a' :: rest', b.Legible) {r r' : List Char}
    (same : joined (charsAll (a :: rest)) ++ ')' :: r =
      joined (charsAll (a' :: rest')) ++ ')' :: r') :
    List.Forall₂ Token.Matches (postorderAll (a :: rest)) (postorderAll (a' :: rest')) ∧
      rest.length = rest'.length ∧ r = r' := by
  induction rest generalizing a a' rest' with
  | nil =>
    obtain ⟨first, same⟩ := ih a (List.mem_cons_self ..) a' _ _ (h a (List.mem_cons_self ..))
      (h' a' (List.mem_cons_self ..)) (behind_others [] r) (behind_others rest' r')
      (by simpa [charsAll, joined] using same)
    cases rest' with
    | nil => cases same; exact ⟨List.rel_append first .nil, rfl, rfl⟩
    | cons b' rest' => cases same
  | cons b rest ihRest =>
    obtain ⟨first, same⟩ := ih a (List.mem_cons_self ..) a' _ _ (h a (List.mem_cons_self ..))
      (h' a' (List.mem_cons_self ..)) (behind_others (b :: rest) r) (behind_others rest' r')
      (by simpa [charsAll, joined] using same)
    cases rest' with
    | nil => cases same
    | cons b' rest' =>
      have same : joined (charsAll (b :: rest)) ++ ')' :: r =
          joined (charsAll (b' :: rest')) ++ ')' :: r' := by
        simpa [charsAll, others, joined] using same
      obtain ⟨later, length, rests⟩ := ihRest (fun d hd => ih d (List.mem_cons_of_mem a hd))
        (fun d hd => h d (List.mem_cons_of_mem a hd))
        (fun d hd => h' d (List.mem_cons_of_mem a' hd)) same
      exact ⟨List.rel_append first later, congrArg (· + 1) length, rests⟩

theorem joined_unique {args args' : List Tree} (ih : ∀ a ∈ args, a.ReadUniquely)
    (h : ∀ a ∈ args, a.Legible) (h' : ∀ a ∈ args', a.Legible) {r r' : List Char}
    (same : joined (charsAll args) ++ ')' :: r = joined (charsAll args') ++ ')' :: r') :
    List.Forall₂ Token.Matches (postorderAll args) (postorderAll args') ∧
      args.length = args'.length ∧ r = r' := by
  cases args with
  | nil =>
    cases args' with
    | nil => cases same; exact ⟨.nil, rfl, rfl⟩
    | cons a' rest' =>
      simp only [charsAll, joined, List.append_assoc] at same
      exact absurd same.symm (chars_ne_close (h' a' (List.mem_cons_self ..)) _ _)
  | cons a rest =>
    cases args' with
    | nil =>
      simp only [charsAll, joined, List.append_assoc] at same
      exact absurd same (chars_ne_close (h a (List.mem_cons_self ..)) _ _)
    | cons a' rest' =>
      obtain ⟨all, length, rests⟩ := arguments_unique ih h h' same
      exact ⟨all, congrArg (· + 1) length, rests⟩

theorem Legible.operands {o : Operator} {args : List Tree}
    (h : (node (.operator o) args).Legible) :
    (∃ a, args = [a]) ∨ ∃ a b, args = [a, b] := by
  have length : args.length = o.operands.toNat := h.wellFormed.1
  rcases o.arity_eq_one_or_two with one | two
  · exact .inl (List.length_eq_one_iff.mp (length.trans one))
  · exact .inr (List.length_eq_two.mp (length.trans two))

theorem operator_unique {o o' : Operator} {args args' : List Tree}
    (ih : ∀ a ∈ args, a.ReadUniquely) (h : (node (.operator o) args).Legible)
    (h' : (node (.operator o') args').Legible) {r r' : List Char}
    (same : (node (.operator o) args).chars ++ r = (node (.operator o') args').chars ++ r') :
    List.Forall₂ Token.Matches (postorderAll args) (postorderAll args') ∧
      args.length = args'.length ∧ o.symbol = o'.symbol ∧ r = r' := by
  obtain ⟨c, symbol, char⟩ := h.operation.symbol
  obtain ⟨c', symbol', char'⟩ := h'.operation.symbol
  have symbols (hc : c = c') : o.symbol = o'.symbol :=
    String.toList_injective (by rw [symbol, symbol', hc])
  have legible := h.args
  have legible' := h'.args
  -- There are one or two operands on either side, and the mixed cases cannot be.
  rcases h.operands with ⟨a, rfl⟩ | ⟨a, b, rfl⟩ <;>
    rcases h'.operands with ⟨a', rfl⟩ | ⟨a', b', rfl⟩ <;>
    simp only [List.forall_mem_cons, List.not_mem_nil, false_implies, implies_true, and_true]
      at ih legible legible' <;>
    simp only [chars, charsAll, applied, symbol, symbol', List.cons_append, List.nil_append,
      List.append_assoc, List.cons.injEq, true_and] at same
  · obtain ⟨hc, same⟩ := same
    obtain ⟨all, rests⟩ := ih a' _ _ legible legible' (behind_close r)
      (behind_close r') same
    rw [postorderAll_singleton, postorderAll_singleton]
    exact ⟨all, rfl, symbols hc, (List.cons.inj rests).2⟩
  · exact absurd same (unary_ne_binary legible legible'.1 char _ _)
  · exact absurd same.symm (unary_ne_binary legible' legible.1 char' _ _)
  · obtain ⟨first, same⟩ := ih.1 a' _ _ legible.1 legible'.1 (behind_blank _)
      (behind_blank _) same
    simp only [List.cons.injEq, true_and] at same
    obtain ⟨hc, same⟩ := same
    obtain ⟨second, rests⟩ := ih.2 b' _ _ legible.2 legible'.2 (behind_close r)
      (behind_close r') same
    refine ⟨?_, rfl, symbols hc, (List.cons.inj rests).2⟩
    rw [postorderAll, postorderAll_singleton, postorderAll, postorderAll_singleton]
    exact List.rel_append first second

theorem number_ne_name {x : Float} {n : String} (hx : Binary64.IsFinite x)
    (hn : isFunctionName n = true) : (Rendering.number x).toList ≠ n.toList := by
  obtain ⟨-, negative, cs, text, unsigned⟩ := word_of_number hx
  obtain ⟨-, c, rest, name, start⟩ := word_of_isFunctionName hn
  obtain ⟨d, tail, rfl, digit⟩ := unsigned.digit
  rw [text, name]
  intro same
  cases negative with
  | false =>
    obtain ⟨rfl, -⟩ := List.cons.inj same
    rw [isNameStart_digit digit] at start
    cases start
  | true =>
    obtain ⟨rfl, -⟩ := List.cons.inj same
    exact absurd start (by decide)

/-- The text of a number or a name is that of a number or a name only. -/
theorem leaf_of_same {t t' : Tree} (h : t.Legible) (h' : t'.Legible) {r r' : List Char}
    (hr : Behind r) (hr' : Behind r') (leaf : t.afterWord r = r) (filled : t.word ≠ [])
    (same : t.chars ++ r = t'.chars ++ r') :
    t.word = t'.word ∧ r = r' ∧ ((∃ x, t' = .number x) ∨ ∃ n, t' = .name n) := by
  obtain ⟨words, rests⟩ := word_unique h h' hr hr' same
  rw [leaf] at rests
  cases t' with
  | number x => exact ⟨words, rests, .inl ⟨x, rfl⟩⟩
  | name n => exact ⟨words, rests, .inr ⟨n, rfl⟩⟩
  | node op args =>
    cases op with
    | operator o => exact absurd words filled
    | function f => exact absurd rests hr.not_open

/-- **A text tells its tree**, whatever follows. -/
theorem chars_inj (t : Tree) : t.ReadUniquely := by
  induction t using inductionOn with
  | number x =>
    intro t' r r' h h' hr hr' same
    have finite : Binary64.IsFinite x := h.tokens _ (List.mem_singleton_self _)
    obtain ⟨words, rests, ⟨y, rfl⟩ | ⟨n, rfl⟩⟩ :=
      leaf_of_same h h' hr hr' rfl (word_of_number finite).1.filled same
    · have equal := Rendering.beq_of_number_eq finite (h'.tokens _ (List.mem_singleton_self _))
        (String.toList_injective words)
      exact ⟨.cons equal .nil, rests⟩
    · exact absurd words (number_ne_name finite (h'.tokens _ (List.mem_singleton_self _)))
  | name n =>
    intro t' r r' h h' hr hr' same
    have valid : isFunctionName n = true := h.tokens _ (List.mem_singleton_self _)
    obtain ⟨words, rests, ⟨y, rfl⟩ | ⟨m, rfl⟩⟩ :=
      leaf_of_same h h' hr hr' rfl (word_of_isFunctionName valid).1.filled same
    · exact absurd words.symm
        (number_ne_name (h'.tokens _ (List.mem_singleton_self _)) valid)
    · exact ⟨.cons (String.toList_injective words) .nil, rests⟩
  | node op args ih =>
    intro t' r r' h h' hr hr' same
    cases t' with
    -- A leaf on the other side would make this side one as well.
    | number y =>
      have finite : Binary64.IsFinite y := h'.tokens _ (List.mem_singleton_self _)
      obtain ⟨-, -, ⟨x, other⟩ | ⟨n, other⟩⟩ :=
        leaf_of_same h' h hr' hr rfl (word_of_number finite).1.filled same.symm <;> cases other
    | name m =>
      have valid : isFunctionName m = true := h'.tokens _ (List.mem_singleton_self _)
      obtain ⟨-, -, ⟨x, other⟩ | ⟨n, other⟩⟩ :=
        leaf_of_same h' h hr' hr rfl (word_of_isFunctionName valid).1.filled same.symm <;>
        cases other
    | node op' args' =>
      have arities : args.length = args'.length → op.arity = op'.arity := fun length =>
        h.wellFormed.1.symm.trans (length.trans h'.wellFormed.1)
      obtain ⟨words, rests⟩ := word_unique h h' hr hr' same
      cases op with
      | operator o =>
        cases op' with
        | operator o' =>
          obtain ⟨all, length, symbols, rests⟩ := operator_unique ih h h' same
          exact ⟨List.rel_append all (.cons ⟨rfl, symbols, arities length⟩ .nil), rests⟩
        | function f' =>
          exact absurd words.symm (word_of_isFunctionName h'.operation.functionName).1.filled
      | function f =>
        cases op' with
        | operator o' =>
          exact absurd words (word_of_isFunctionName h.operation.functionName).1.filled
        | function f' =>
          obtain ⟨all, length, rests⟩ := joined_unique ih h.args h'.args (List.cons.inj rests).2
          have names : f.name = f'.name := String.toList_injective words
          exact ⟨List.rel_append all (.cons ⟨rfl, names, arities length⟩ .nil), rests⟩

end Tree

/-! ## Expressions of one text -/

theorem matches_of_rendering_eq {ts ts' : List Token} {text : String}
    (legible : ∀ u ∈ ts, u.Legible) (legible' : ∀ u ∈ ts', u.Legible)
    (h : rendering ts = .ok text) (h' : rendering ts' = .ok text) :
    List.Forall₂ Token.Matches ts ts' := by
  obtain ⟨-, t, wf, rfl, ht⟩ := (Tree.fold_eq_ok_iff (Expression.render_totalOn ts)).mp h
  obtain ⟨-, t', wf', rfl, ht'⟩ := (Tree.fold_eq_ok_iff (Expression.render_totalOn ts')).mp h'
  rw [Tree.value_rendering] at ht ht'
  have same : t.chars = t'.chars := by
    rw [← Except.ok.inj ht'] at ht
    exact String.ofList_injective (Except.ok.inj ht)
  have none : Tree.Behind [] := fun c hc => by cases hc
  exact (t.chars_inj t' [] [] ⟨wf, legible⟩ ⟨wf', legible'⟩ none none
    (by rw [same])).1

namespace Expression

/-- **The text of an expression is unambiguous.** Expressions whose tokens can be read, and that
are written in the same way, have equally many tokens that match one by one: numbers that are
equal, the same names, and operations of the same kind, name and count. -/
theorem matches_of_render_eq {e e' : Expression} (reached : e.Reachable) (reached' : e'.Reachable)
    (legible : ∀ u ∈ e.tokens, u.Legible) (legible' : ∀ u ∈ e'.tokens, u.Legible) {text : String}
    (h : e.render.2 = .ok text) (h' : e'.render.2 = .ok text) :
    List.Forall₂ Token.Matches e.tokens e'.tokens := by
  rw [reached.render] at h
  rw [reached'.render] at h'
  exact matches_of_rendering_eq legible legible' h h'

/-- A function that is named as `blend` is, and has no kernel. -/
def mimic : Operation := .function (.defined ⟨7, "blend", .whole 3, none⟩)

def mimicked : Expression :=
  ofTokens [.name "pi", .number 2.0, .name "e", .operation mimic, .operation seven,
    .operation (.operator (.builtin .add))] [] {}

theorem matches_of_render_eq_mimicked :
    sample.render.2 = .ok "(blend(pi, 2, e) + seven())" ∧
      mimicked.render.2 = .ok "(blend(pi, 2, e) + seven())" ∧
      List.Forall₂ Token.Matches sample.tokens mimicked.tokens := by
  have two : Binary64.IsFinite 2.0 := ⟨_, _, rfl⟩
  have sevens : Token.Legible (.operation seven) := ⟨1, .text "seven", .whole 0, _, rfl⟩
  have legible : ∀ u ∈ sample.tokens, u.Legible := by
    simp only [sample, ofTokens, blended, List.forall_mem_cons, List.not_mem_nil, false_implies,
      implies_true, and_true]
    exact ⟨rfl, two, rfl, ⟨0, .text "blend", .whole 3, _, rfl⟩, sevens, trivial⟩
  have legible' : ∀ u ∈ mimicked.tokens, u.Legible := by
    simp only [mimicked, ofTokens, List.forall_mem_cons, List.not_mem_nil, false_implies,
      implies_true, and_true]
    exact ⟨rfl, two, rfl, ⟨7, .text "blend", .whole 3, _, rfl⟩, sevens, trivial⟩
  have text : sample.render.2 = .ok "(blend(pi, 2, e) + seven())" := rfl
  have text' : mimicked.render.2 = .ok "(blend(pi, 2, e) + seven())" := rfl
  exact ⟨text, text', matches_of_render_eq (.made ..) (.made ..) legible legible' text text'⟩

end Expression
end ReversePolish
