import Mathlib.Data.List.Forall2
import Std.Data.String.ToInt
import ThreeAddress.Program

set_option autoImplicit false

namespace ThreeAddress

section Cut

variable {α : Type}

theorem take_until (within : α → Bool) (first rest : List α) (inside : ∀ x ∈ first, within x = true)
    (stop : ∀ x ∈ rest.head?, within x = false) : (first ++ rest).takeWhile within = first := by
  rw [List.takeWhile_append_of_pos inside]
  cases rest with
  | nil => simp
  | cons x _ => simp [stop x rfl]

theorem cut_unique (within : α → Bool) (first second rest other : List α)
    (insideFirst : ∀ x ∈ first, within x = true) (insideSecond : ∀ x ∈ second, within x = true)
    (stopRest : ∀ x ∈ rest.head?, within x = false) (stopOther : ∀ x ∈ other.head?, within x = false)
    (same : first ++ rest = second ++ other) : first = second ∧ rest = other := by
  have taken := congrArg (List.takeWhile within) same
  rw [take_until within first rest insideFirst stopRest, take_until within second other insideSecond stopOther]
    at taken
  subst taken
  exact ⟨rfl, List.append_cancel_left same⟩

theorem terminated_unique [DecidableEq α] (stop : α) (parts others : List (List α))
    (free : ∀ part ∈ parts, stop ∉ part) (freeOthers : ∀ part ∈ others, stop ∉ part)
    (same : (parts.flatMap fun part => part ++ [stop]) = others.flatMap fun part => part ++ [stop]) :
    parts = others := by
  induction parts generalizing others with
  | nil =>
      cases others with
      | nil => rfl
      | cons other _ => simp at same
  | cons part rest ih =>
      cases others with
      | nil => simp at same
      | cons other more =>
          have inside : ∀ text : List α, stop ∉ text → ∀ x ∈ text, decide (x ≠ stop) = true := by
            intro text absent x member
            exact decide_eq_true fun same => absent (same ▸ member)
          simp only [List.flatMap_cons, List.append_assoc] at same
          obtain ⟨equal, tails⟩ := cut_unique (fun x => decide (x ≠ stop)) part other _ _
            (inside part (free part List.mem_cons_self)) (inside other (freeOthers other List.mem_cons_self))
            (by simp) (by simp) same
          rw [equal, ih more (fun text member => free text (List.mem_cons_of_mem part member))
            (fun text member => freeOthers text (List.mem_cons_of_mem other member)) (List.cons.inj tails).2]

end Cut

def wordChar (c : Char) : Bool := c.isAlphanum || c == '#' || c == '-'

def numeralChar (c : Char) : Bool := c.isDigit || c == '-'

theorem numeral_word (c : Char) (numeral : numeralChar c = true) : wordChar c = true := by
  simp only [numeralChar, wordChar, Char.isAlphanum, Bool.or_eq_true] at numeral ⊢
  tauto

theorem nat_digits (n : Nat) : ∀ c ∈ (toString n).toList, c.isDigit = true := by
  intro c member
  rw [Nat.toString_eq_repr, Nat.toList_repr] at member
  exact Nat.isDigit_of_mem_toDigits (by decide) (by decide) member

theorem nat_numeral (n : Nat) : ∀ c ∈ (toString n).toList, numeralChar c = true := by
  intro c member
  simp [numeralChar, nat_digits n c member]

theorem int_numeral (n : Int) : ∀ c ∈ (toString n).toList, numeralChar c = true := by
  intro c member
  rw [Int.toString_eq_repr, Int.repr_eq_if] at member
  by_cases positive : 0 ≤ n
  · rw [if_pos positive, ← Nat.toString_eq_repr] at member
    exact nat_numeral n.toNat c member
  · rw [if_neg positive, String.toList_append, ← Nat.toString_eq_repr] at member
    rcases List.mem_append.mp member with sign | digit
    · rw [List.mem_singleton.mp (show c ∈ ['-'] from sign)]
      rfl
    · exact nat_numeral (-n).toNat c digit

namespace Immediate

def numeral : Immediate → String
  | .int8 value => toString value.toInt
  | .uint8 value => toString value.toNat
  | .int value => toString value.toInt
  | .uint value => toString value.toNat
  | .bool _ => ""

def suffix : Immediate → String
  | .int8 _ => "i8"
  | .uint8 _ => "u8"
  | .int _ => ""
  | .uint _ => "u"
  | .bool true => "true"
  | .bool false => "false"

theorem text_parts (value : Immediate) : value.text = value.numeral ++ value.suffix := by
  cases value with
  | bool value => cases value <;> rfl
  | int value => simp [text, numeral, suffix]
  | _ => rfl

theorem numeral_chars (value : Immediate) : ∀ c ∈ value.numeral.toList, numeralChar c = true := by
  cases value with
  | int8 value => exact int_numeral value.toInt
  | uint8 value => exact nat_numeral value.toNat
  | int value => exact int_numeral value.toInt
  | uint value => exact nat_numeral value.toNat
  | bool value => simp [numeral]

theorem suffix_chars (value : Immediate) : value.suffix.toList.all wordChar = true := by
  cases value with
  | bool value => cases value <;> simp [suffix, wordChar]
  | _ => simp [suffix, wordChar]

theorem suffix_stops (value : Immediate) : ∀ c ∈ value.suffix.toList.head?, numeralChar c = false := by
  cases value with
  | bool value => cases value <;> simp [suffix, numeralChar]
  | _ => simp [suffix, numeralChar]

theorem suffix_unmarked (value : Immediate) (rest : List Char) : value.suffix.toList ≠ '#' :: rest := by
  cases value with
  | bool value => cases value <;> simp [suffix]
  | _ => simp [suffix]

theorem parts_unique (left right : Immediate) (numerals : left.numeral = right.numeral)
    (suffixes : left.suffix = right.suffix) : left = right := by
  cases left with
  | int8 value =>
      cases right with
      | int8 other => exact congrArg int8 (Int8.toInt_inj.mp (Int.repr_inj.mp numerals))
      | bool other => cases other <;> simp [suffix] at suffixes
      | _ => simp [suffix] at suffixes
  | uint8 value =>
      cases right with
      | uint8 other => exact congrArg uint8 (UInt8.toNat_inj.mp (Nat.repr_inj.mp numerals))
      | bool other => cases other <;> simp [suffix] at suffixes
      | _ => simp [suffix] at suffixes
  | int value =>
      cases right with
      | int other => exact congrArg int (Int32.toInt_inj.mp (Int.repr_inj.mp numerals))
      | bool other => cases other <;> simp [suffix] at suffixes
      | _ => simp [suffix] at suffixes
  | uint value =>
      cases right with
      | uint other => exact congrArg uint (UInt32.toNat_inj.mp (Nat.repr_inj.mp numerals))
      | bool other => cases other <;> simp [suffix] at suffixes
      | _ => simp [suffix] at suffixes
  | bool value =>
      cases right with
      | bool other => cases value <;> cases other <;> simp [suffix] at suffixes ⊢
      | _ => cases value <;> simp [suffix] at suffixes

end Immediate

theorem SymbolRef.text_marked (ref : SymbolRef) : ref.text.toList = '#' :: (SymbolId.text ref.id).toList := by
  simp [SymbolRef.text]

namespace Operand

def Agrees : Operand → Operand → Prop
  | .immediate value, .immediate other => value = other
  | .symbol ref, .symbol other => ref.id = other.id
  | _, _ => False

def numeral : Operand → String
  | .immediate value => value.numeral
  | .symbol _ => ""

def suffix : Operand → String
  | .immediate value => value.suffix
  | .symbol ref => ref.text

theorem text_parts (operand : Operand) : operand.text = operand.numeral ++ operand.suffix := by
  cases operand with
  | immediate value => exact value.text_parts
  | symbol ref => simp [text, numeral, suffix]

theorem numeral_chars (operand : Operand) : ∀ c ∈ operand.numeral.toList, numeralChar c = true := by
  cases operand with
  | immediate value => exact value.numeral_chars
  | symbol ref => simp [numeral]

theorem suffix_stops (operand : Operand) : ∀ c ∈ operand.suffix.toList.head?, numeralChar c = false := by
  cases operand with
  | immediate value => exact value.suffix_stops
  | symbol ref => simp [suffix, ref.text_marked, numeralChar]

theorem text_chars (operand : Operand) : ∀ c ∈ operand.text.toList, wordChar c = true := by
  intro c member
  rw [text_parts, String.toList_append] at member
  rcases List.mem_append.mp member with numeral | suffix
  · exact numeral_word c (operand.numeral_chars c numeral)
  · cases operand with
    | immediate value => exact List.all_eq_true.mp value.suffix_chars c suffix
    | symbol ref =>
        rw [Operand.suffix, ref.text_marked] at suffix
        rcases List.mem_cons.mp suffix with rfl | digit
        · rfl
        · exact numeral_word c (nat_numeral ref.id c digit)

theorem text_eq_iff (left right : Operand) : left.text = right.text ↔ left.Agrees right := by
  constructor
  · intro same
    have chars := congrArg String.toList same
    rw [text_parts, text_parts, String.toList_append, String.toList_append] at chars
    obtain ⟨numerals, suffixes⟩ := cut_unique numeralChar _ _ _ _ left.numeral_chars right.numeral_chars
      left.suffix_stops right.suffix_stops chars
    rw [String.toList_inj] at numerals
    cases left with
    | immediate value =>
        cases right with
        | immediate other => exact value.parts_unique other numerals (String.toList_inj.mp suffixes)
        | symbol ref =>
            rw [suffix, suffix, ref.text_marked] at suffixes
            exact absurd suffixes (value.suffix_unmarked _)
    | symbol ref =>
        cases right with
        | immediate value =>
            rw [suffix, suffix, ref.text_marked] at suffixes
            exact absurd suffixes.symm (value.suffix_unmarked _)
        | symbol other =>
            rw [suffix, suffix, ref.text_marked, other.text_marked] at suffixes
            exact Nat.repr_inj.mp (String.toList_inj.mp (List.cons.inj suffixes).2)
  · intro agrees
    cases left with
    | immediate value =>
        cases right with
        | immediate other => exact congrArg (fun value => (immediate value).text) agrees
        | symbol ref => cases agrees
    | symbol ref =>
        cases right with
        | immediate value => cases agrees
        | symbol other => exact congrArg (fun id => "#" ++ SymbolId.text id) agrees

theorem texts_eq_iff (left right : Option Operand) :
    left.map text = right.map text ↔ Option.Rel Agrees left right := by
  cases left with
  | none => cases right <;> simp
  | some operand => cases right <;> simp [text_eq_iff]

end Operand

namespace Opcode

theorem of_text (opcode : Opcode) : Vocabulary.ofText? opcode.text = some opcode := by
  cases opcode with
  | binary op => cases op <;> decide
  | unary op => cases op <;> decide
  | jumpIf condition => cases condition <;> decide
  | setIf condition => cases condition <;> decide
  | _ => decide

theorem text_chars (opcode : Opcode) : opcode.text.toList.all wordChar = true := by
  cases opcode with
  | binary op => cases op <;> decide
  | unary op => cases op <;> decide
  | jumpIf condition => cases condition <;> decide
  | setIf condition => cases condition <;> decide
  | _ => decide

theorem text_injective (left right : Opcode) (same : left.text = right.text) : left = right := by
  have found := right.of_text
  rw [← same, left.of_text] at found
  exact Option.some.inj found

theorem slots_in_order (opcode : Opcode) : opcode.signature.second = .unused ∨ opcode.signature.first = .required := by
  cases opcode <;> simp [signature]

end Opcode

namespace Width

theorem text_chars (width : Width) : width.text.toList.all wordChar = true := by
  cases width <;> decide

theorem text_injective (left right : Width) (same : left.text = right.text) : left = right := by
  cases left <;> cases right <;> first | rfl | exact absurd same (by decide)

end Width

namespace Statement

structure Agrees (left right : Statement) : Prop where
  opcode : left.opcode = right.opcode
  width : left.width = right.width
  first : Option.Rel Operand.Agrees left.first right.first
  second : Option.Rel Operand.Agrees left.second right.second
  result : Option.Rel Operand.Agrees left.result right.result

def head (statement : Statement) : List Char := statement.opcode.text.toList ++ '.' :: statement.width.text.toList

def arrow : List Char := ['-', '>']

def resultWords (statement : Statement) : List (List Char) :=
  match statement.result with
  | some result => [arrow, result.text.toList]
  | none => []

def words (statement : Statement) : List (List Char) :=
  statement.head :: (statement.operands.map fun operand => operand.text.toList) ++ statement.resultWords

theorem blanks_shift (first : List Char) (words : List (List Char)) :
    first ++ (words.flatMap fun word => ' ' :: word) ++ [' '] = (first :: words).flatMap fun word => word ++ [' '] := by
  induction words generalizing first with
  | nil => simp
  | cons word rest ih =>
      have later := ih word
      simp only [List.flatMap_cons] at later ⊢
      simp [← later]

theorem text_words (statement : Statement) :
    statement.text.toList ++ [' '] = statement.words.flatMap fun word => word ++ [' '] := by
  have operands : (String.join (statement.operands.map fun operand => " " ++ operand.text)).toList =
      (statement.operands.map fun operand => operand.text.toList).flatMap fun word => ' ' :: word := by
    simp [String.toList_join, List.flatMap_map]
  rw [words, List.cons_append, ← blanks_shift, List.flatMap_append, ← operands, text]
  cases present : statement.result with
  | none => simp [head, resultWords, present]
  | some result => simp [head, resultWords, present, arrow]

theorem head_chars (statement : Statement) : ∀ c ∈ statement.head, wordChar c = true ∨ c = '.' := by
  intro c member
  rcases List.mem_append.mp member with opcode | rest
  · exact Or.inl (List.all_eq_true.mp statement.opcode.text_chars c opcode)
  · rcases List.mem_cons.mp rest with dot | width
    · exact Or.inr dot
    · exact Or.inl (List.all_eq_true.mp statement.width.text_chars c width)

theorem words_chars (statement : Statement) : ∀ word ∈ statement.words, ∀ c ∈ word,
    wordChar c = true ∨ c = '.' ∨ c = '>' := by
  intro word member c inside
  rcases List.mem_append.mp member with before | behind
  · rcases List.mem_cons.mp before with rfl | listed
    · exact (statement.head_chars c inside).imp_right Or.inl
    · obtain ⟨operand, _, rfl⟩ := List.mem_map.mp listed
      exact Or.inl (operand.text_chars c inside)
  · cases present : statement.result with
    | none => simp [resultWords, present] at behind
    | some result =>
        simp only [resultWords, present, List.mem_cons, List.not_mem_nil, or_false] at behind
        rcases behind with rfl | rfl
        · simp only [arrow, List.mem_cons, List.not_mem_nil, or_false] at inside
          rcases inside with rfl | rfl
          · exact Or.inl rfl
          · exact Or.inr (Or.inr rfl)
        · exact Or.inl (result.text_chars c inside)

theorem word_free (statement : Statement) (stop : Char) (apart : wordChar stop = false ∧ stop ≠ '.' ∧ stop ≠ '>')
    (word : List Char) (member : word ∈ statement.words) : stop ∉ word := by
  intro inside
  rcases statement.words_chars word member stop inside with word | dot | tip
  · simp [apart.1] at word
  · exact apart.2.1 dot
  · exact apart.2.2 tip

theorem words_of_text (left right : Statement) (same : left.text = right.text) : left.words = right.words := by
  apply terminated_unique ' ' left.words right.words (left.word_free ' ' (by decide)) (right.word_free ' ' (by decide))
  rw [← text_words, ← text_words, same]

theorem head_unique (left right : Statement) (same : left.head = right.head) :
    left.opcode = right.opcode ∧ left.width = right.width := by
  obtain ⟨opcodes, rest⟩ := cut_unique wordChar _ _ _ _ (List.all_eq_true.mp left.opcode.text_chars)
    (List.all_eq_true.mp right.opcode.text_chars) (by simp [wordChar]) (by simp [wordChar]) same
  exact ⟨left.opcode.text_injective right.opcode (String.toList_inj.mp opcodes),
    left.width.text_injective right.width (String.toList_inj.mp (List.cons.inj rest).2)⟩

theorem slots_of_words (left right : Statement) (same : left.words = right.words) :
    left.operands.map Operand.text = right.operands.map Operand.text ∧
      left.result.map Operand.text = right.result.map Operand.text := by
  -- The arrow is no operand, so that it tells the operands from the result.
  have inside : ∀ statement : Statement, ∀ word ∈ statement.operands.map fun operand => operand.text.toList,
      decide (word ≠ arrow) = true := by
    intro statement word member
    obtain ⟨operand, _, rfl⟩ := List.mem_map.mp member
    apply decide_eq_true
    intro pointed
    have tip := operand.text_chars '>' (by simp [pointed, arrow])
    simp [wordChar] at tip
  have stop : ∀ statement : Statement, ∀ word ∈ statement.resultWords.head?, decide (word ≠ arrow) = false := by
    intro statement word first
    cases present : statement.result with
    | none => simp [resultWords, present] at first
    | some result =>
        have pointed : word = arrow := by simpa [resultWords, present, eq_comm] using first
        simp [pointed]
  obtain ⟨operands, results⟩ := cut_unique (fun word => decide (word ≠ arrow)) _ _ _ _ (inside left) (inside right)
    (stop left) (stop right) (List.cons.inj same).2
  refine ⟨?_, ?_⟩
  · have texts := congrArg (List.map String.ofList) operands
    simpa [List.map_map, Function.comp_def] using texts
  · cases presentLeft : left.result with
    | none =>
        cases presentRight : right.result with
        | none => rfl
        | some result => simp [resultWords, presentLeft, presentRight] at results
    | some result =>
        cases presentRight : right.result with
        | none => simp [resultWords, presentLeft, presentRight] at results
        | some other =>
            simp only [resultWords, presentLeft, presentRight, List.cons.injEq, true_and, and_true] at results
            exact congrArg some (String.toList_inj.mp results)

theorem text_of_slots (left right : Statement) (opcode : left.opcode = right.opcode) (width : left.width = right.width)
    (operands : left.operands.map Operand.text = right.operands.map Operand.text)
    (results : left.result.map Operand.text = right.result.map Operand.text) : left.text = right.text := by
  have spaced : ∀ statement : Statement, (statement.operands.map fun operand => " " ++ operand.text) =
      (statement.operands.map Operand.text).map fun text => " " ++ text := by
    intro statement
    rw [List.map_map]
    rfl
  rw [text, text, opcode, width, spaced, spaced, operands]
  cases presentLeft : left.result with
  | none =>
      cases presentRight : right.result with
      | none => rfl
      | some other => simp [presentLeft, presentRight] at results
  | some result =>
      cases presentRight : right.result with
      | none => simp [presentLeft, presentRight] at results
      | some other =>
          simp only [presentLeft, presentRight, Option.map_some, Option.some.injEq] at results
          simp only [results]

theorem conforms_ordered (statement : Statement) (conforms : statement.conforms = true)
    (absent : statement.first = none) : statement.second = none := by
  simp only [Statement.conforms, absent, Option.isSome_none, Bool.and_eq_true] at conforms
  obtain ⟨⟨first, second⟩, _⟩ := conforms
  rcases statement.opcode.slots_in_order with unused | required
  · simpa [unused, Slot.admits] using second
  · simp [required, Slot.admits] at first

theorem operands_eq_iff (left right : Statement) (fits : left.conforms = true) (fitsRight : right.conforms = true) :
    left.operands.map Operand.text = right.operands.map Operand.text ↔
      left.first.map Operand.text = right.first.map Operand.text ∧
        left.second.map Operand.text = right.second.map Operand.text := by
  have ordered := left.conforms_ordered fits
  have orderedRight := right.conforms_ordered fitsRight
  simp only [operands]
  cases firstLeft : left.first with
  | none =>
      rw [ordered firstLeft]
      cases firstRight : right.first with
      | none => simp [orderedRight firstRight]
      | some other => simp
  | some operand =>
      cases firstRight : right.first with
      | none => simp [orderedRight firstRight]
      | some other => cases left.second <;> cases right.second <;> simp

theorem text_eq_iff (left right : Statement) (fits : left.conforms = true) (fitsRight : right.conforms = true) :
    left.text = right.text ↔ left.Agrees right := by
  have slots := operands_eq_iff left right fits fitsRight
  simp only [Operand.texts_eq_iff] at slots
  constructor
  · intro same
    have words := words_of_text left right same
    obtain ⟨opcode, width⟩ := head_unique left right (List.cons.inj words).1
    obtain ⟨operands, results⟩ := slots_of_words left right words
    obtain ⟨first, second⟩ := slots.mp operands
    exact ⟨opcode, width, first, second, (Operand.texts_eq_iff left.result right.result).mp results⟩
  · intro agrees
    exact text_of_slots left right agrees.opcode agrees.width (slots.mpr ⟨agrees.first, agrees.second⟩)
      ((Operand.texts_eq_iff left.result right.result).mpr agrees.result)

end Statement

namespace Program

theorem append_all_statements (program : Program) (statements : List Statement) :
    (program.appendAll statements).statements = program.statements ++ statements.filter Statement.conforms := by
  induction statements generalizing program with
  | nil => simp [appendAll]
  | cons statement rest ih =>
      by_cases conforms : statement.conforms = true
      · have step : program.appendAll (statement :: rest) =
            appendAll ⟨program.statements ++ [statement]⟩ rest := by simp [appendAll, append, conforms]
        rw [step, ih, List.filter_cons_of_pos conforms, List.append_assoc, List.singleton_append]
      · have step : program.appendAll (statement :: rest) = program.appendAll rest := by
          simp [appendAll, append, conforms]
        rw [step, ih, List.filter_cons_of_neg conforms]

def row (line : Line) (statement : Statement) : List Char :=
  (toString line).toList ++ ':' :: ' ' :: statement.text.toList

def rows (first : Line) (statements : List Statement) : List (List Char) :=
  (statements.zipIdx first).map fun (statement, line) => row line statement

theorem rows_cons (first : Line) (statement : Statement) (rest : List Statement) :
    rows first (statement :: rest) = row first statement :: rows (first + 1) rest := by
  simp [rows]

theorem listing_rows (program : Program) :
    program.listing.toList = (rows 0 program.statements).flatMap fun row => row ++ ['\n'] := by
  have plain : ∀ text : String, toString text = text := fun _ => rfl
  simp [listing, lines, rows, row, plain, String.toList_join, List.flatMap_map, Function.comp_def]

theorem row_eq_iff (line : Line) (left right : Statement) :
    row line left = row line right ↔ left.text = right.text := by
  simp [row, String.toList_inj]

theorem rows_eq_iff (first : Line) (left right : List Statement) :
    rows first left = rows first right ↔ List.Forall₂ (fun a b => a.text = b.text) left right := by
  induction left generalizing first right with
  | nil => cases right <;> simp [rows]
  | cons statement rest ih =>
      cases right with
      | nil => simp [rows]
      | cons other more => rw [rows_cons, rows_cons, List.cons.injEq, row_eq_iff, ih, List.forall₂_cons]

theorem row_free (line : Line) (statement : Statement) : '\n' ∉ row line statement := by
  have digits : '\n' ∉ (toString line).toList := by
    intro inside
    have digit := nat_digits line '\n' inside
    simp at digit
  have letters : '\n' ∉ statement.text.toList ++ [' '] := by
    rw [statement.text_words]
    intro inside
    obtain ⟨word, listed, member⟩ := List.mem_flatMap.mp inside
    rcases List.mem_append.mp member with within | blank
    · exact statement.word_free '\n' (by decide) word listed within
    · simp at blank
  simp only [row, List.mem_append, List.mem_cons, not_or] at digits letters ⊢
  exact ⟨digits, by decide, by decide, letters.1⟩

theorem rows_free (first : Line) (statements : List Statement) : ∀ row ∈ rows first statements, '\n' ∉ row := by
  intro _ member
  obtain ⟨⟨statement, line⟩, _, rfl⟩ := List.mem_map.mp member
  exact row_free line statement

theorem listing_eq_iff (left right : Program) :
    left.listing = right.listing ↔ List.Forall₂ (fun a b => a.text = b.text) left.statements right.statements := by
  rw [← String.toList_inj, listing_rows, listing_rows, ← rows_eq_iff 0]
  constructor
  · exact terminated_unique '\n' _ _ (rows_free 0 left.statements) (rows_free 0 right.statements)
  · intro same
    rw [same]

theorem append_all_conforms (statements : List Statement) :
    ∀ statement ∈ (empty.appendAll statements).statements, statement.conforms = true := by
  intro statement member
  rw [append_all_statements] at member
  exact (List.mem_filter.mp (by simpa [empty] using member)).2

/-- Statements that do not conform are never listed; one with a second operand alone would be
displayed like one with a first operand alone. -/
theorem listing_unambiguous (left right : List Statement) :
    (empty.appendAll left).listing = (empty.appendAll right).listing ↔
      List.Forall₂ Statement.Agrees (empty.appendAll left).statements (empty.appendAll right).statements := by
  have fits := append_all_conforms left
  have fitsRight := append_all_conforms right
  rw [listing_eq_iff]
  generalize (empty.appendAll left).statements = first at fits ⊢
  generalize (empty.appendAll right).statements = second at fitsRight ⊢
  induction first generalizing second with
  | nil => cases second <;> simp
  | cons statement rest ih =>
      cases second with
      | nil => simp
      | cons other more =>
          rw [List.forall₂_cons, List.forall₂_cons]
          apply and_congr
          · exact statement.text_eq_iff other (fits statement List.mem_cons_self)
              (fitsRight other List.mem_cons_self)
          · exact ih (fun later member => fits later (List.mem_cons_of_mem statement member)) more
              (fun later member => fitsRight later (List.mem_cons_of_mem other member))

end Program

end ThreeAddress
