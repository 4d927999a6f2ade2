import Lineage.Json.Printer
import Lineage.Json.Reader
import Mathlib.Tactic.IntervalCases

/-!
# Reading what was written

A value without numbers can be written down in one way only, but for the blanks between
its tokens.  Whatever is written down so is read as the value that is meant, and a value
on one line as well as a value over several lines is.
-/

namespace Lineage

namespace Json

section Texts

def controlDigits (number : Nat) : List Char :=
  ['0', '0', (number / 16).digitChar, (number % 16).digitChar]

theorem readEscapedUnit_controlDigits {number : Nat} (small : number < 0x20) (rest : List Char) :
    readEscapedUnit (controlDigits number ++ rest) = some (Char.ofNat number, rest) := by
  interval_cases number <;> rfl

theorem toList_lowNumeral {number : Nat} (small : number < 0x10) :
    ("\\u000" ++ Text.hexadecimal number).toList = '\\' :: 'u' :: controlDigits number := by
  interval_cases number <;> rfl

theorem toList_highNumeral {number : Nat} (small : number < 0x20) (big : ¬number < 0x10) :
    ("\\u00" ++ Text.hexadecimal number).toList = '\\' :: 'u' :: controlDigits number := by
  interval_cases number <;> rfl

theorem readText_numeral {character : Char} (small : character.toNat < 0x20) (fuel : Nat)
    (collected rest : List Char) :
    readText (fuel + 1) collected ('\\' :: 'u' :: controlDigits character.toNat ++ rest) =
      readText fuel (character :: collected) rest := by
  simp only [List.cons_append, readText, readEscapedUnit_controlDigits small, Char.ofNat_toNat]

/-- However a character is spelled inside a text, it is read. -/
theorem readText_escapedChar (character : Char) (fuel : Nat) (collected rest : List Char) :
    readText (fuel + 1) collected (escapedChar character ++ rest) =
      readText fuel (character :: collected) rest := by
  unfold escapedChar
  split
  case h_8 other quote backslash _ _ _ _ _ =>
    split
    · rename_i low
      rw [toList_lowNumeral low]
      exact readText_numeral (by omega) fuel collected rest
    · split
      · rename_i high small
        rw [toList_highNumeral small high]
        exact readText_numeral small fuel collected rest
      · rename_i visible
        rw [List.singleton_append, readText]
        · rw [if_neg visible]
        · exact quote
        · exact backslash
  all_goals rfl

theorem readText_flatMap (characters : List Char) {fuel : Nat} (long : characters.length < fuel)
    (collected rest : List Char) :
    readText fuel collected (characters.flatMap escapedChar ++ '"' :: rest) =
      some (String.ofList (collected.reverse ++ characters), rest) := by
  induction characters generalizing fuel collected with
  | nil =>
      obtain ⟨fuel, rfl⟩ := Nat.exists_eq_add_one_of_ne_zero (Nat.ne_zero_of_lt long)
      simp [readText]
  | cons character characters ih =>
      obtain ⟨fuel, rfl⟩ := Nat.exists_eq_add_one_of_ne_zero (Nat.ne_zero_of_lt long)
      rw [List.flatMap_cons, List.append_assoc, readText_escapedChar,
        ih (Nat.lt_of_succ_lt_succ long), List.reverse_cons, List.append_assoc]
      rfl

end Texts

section Notation

def Blank (gap : List Char) : Prop :=
  ∀ character ∈ gap,
    character = ' ' ∨ character = '\n' ∨ character = '\t' ∨ character = '\r'

/-- What a reader of structured values reads in one go: a value, the items of a list up
to its end, or the fields of an object up to its end. -/
inductive Part where
  | value (value : Json)
  | items (items : List Json)
  | fields (fields : List (String × Json))

-- One relation for all parts: the readers call one another, and so one induction serves
-- them together.
/-- Characters spell a part of a structured value in which there are no numbers. -/
inductive Spells : Part → List Char → Prop
  | null : Spells (.value .null) ['n', 'u', 'l', 'l']
  | yes : Spells (.value (.bool true)) ['t', 'r', 'u', 'e']
  | no : Spells (.value (.bool false)) ['f', 'a', 'l', 's', 'e']
  | string (text : String) : Spells (.value (.string text)) (renderText text).toList
  | emptyArray {gap : List Char} (blank : Blank gap) :
      Spells (.value (.array [])) ('[' :: (gap ++ [']']))
  | array {items : List Json} {written : List Char} (inside : Spells (.items items) written) :
      Spells (.value (.array items)) ('[' :: written)
  | emptyObject {gap : List Char} (blank : Blank gap) :
      Spells (.value (.object [])) ('{' :: (gap ++ ['}']))
  | object {fields : List (String × Json)} {written : List Char}
      (inside : Spells (.fields fields) written) :
      Spells (.value (.object fields)) ('{' :: written)
  | spaced {gap written : List Char} {value : Json} (blank : Blank gap)
      (spelled : Spells (.value value) written) : Spells (.value value) (gap ++ written)
  | lastItem {item : Json} {written gap : List Char} (spelled : Spells (.value item) written)
      (blank : Blank gap) : Spells (.items [item]) (written ++ (gap ++ [']']))
  | item {item : Json} {items : List Json} {written gap others : List Char}
      (spelled : Spells (.value item) written) (blank : Blank gap)
      (later : Spells (.items items) others) :
      Spells (.items (item :: items)) (written ++ (gap ++ ',' :: others))
  | lastField {name : String} {value : Json} {front between written gap : List Char}
      (before : Blank front) (apart : Blank between) (spelled : Spells (.value value) written)
      (blank : Blank gap) :
      Spells (.fields [(name, value)])
        (front ++ ((renderText name).toList ++ (between ++ ':' :: (written ++ (gap ++ ['}'])))))
  | field {name : String} {value : Json} {fields : List (String × Json)}
      {front between written gap others : List Char}
      (before : Blank front) (apart : Blank between) (spelled : Spells (.value value) written)
      (blank : Blank gap) (later : Spells (.fields fields) others) :
      Spells (.fields ((name, value) :: fields))
        (front ++ ((renderText name).toList ++
          (between ++ ':' :: (written ++ (gap ++ ',' :: others)))))

end Notation

section Reading

variable {fuel : Nat} {front between gap characters rest more : List Char} {item value : Json}
  {items : List Json} {fields : List (String × Json)} {name : String}

theorem skipBlanks_append (blank : Blank gap) (rest : List Char) :
    skipBlanks (gap ++ rest) = skipBlanks rest := by
  induction gap with
  | nil => rfl
  | cons character gap ih =>
      obtain ⟨here, later⟩ := List.forall_mem_cons.mp blank
      rw [List.cons_append, skipBlanks, if_pos here]
      exact ih later

theorem skipBlanks_skipBlanks (characters : List Char) :
    skipBlanks (skipBlanks characters) = skipBlanks characters := by
  induction characters with
  | nil => rfl
  | cons character characters ih =>
      rw [skipBlanks]
      split
      · exact ih
      · rename_i solid
        rw [skipBlanks, if_neg solid]

theorem readValue_skipBlanks (fuel : Nat) (characters : List Char) :
    readValue fuel (skipBlanks characters) = readValue fuel characters := by
  cases fuel with
  | zero => rfl
  | succ fuel => simp only [readValue, skipBlanks_skipBlanks]

theorem readItems_skipBlanks (fuel : Nat) (characters : List Char) :
    readItems fuel (skipBlanks characters) = readItems fuel characters := by
  cases fuel with
  | zero => rfl
  | succ fuel => simp only [readItems, readValue_skipBlanks]

theorem readFields_skipBlanks (fuel : Nat) (characters : List Char) :
    readFields fuel (skipBlanks characters) = readFields fuel characters := by
  cases fuel with
  | zero => rfl
  | succ fuel => simp only [readFields, skipBlanks_skipBlanks]

/-- No list of items begins with its end. -/
theorem readItems_end (fuel : Nat) (rest : List Char) : readItems fuel (']' :: rest) = none := by
  cases fuel with
  | zero => rfl
  | succ fuel =>
      cases fuel with
      | zero => rfl
      | succ fuel => rfl

theorem readFields_end (fuel : Nat) (rest : List Char) : readFields fuel ('}' :: rest) = none := by
  cases fuel with
  | zero => rfl
  | succ fuel => rfl

theorem readValue_emptyArray (blank : Blank gap) :
    readValue (fuel + 1) ('[' :: (gap ++ ']' :: rest)) = some (array [], rest) := by
  have solid (others : List Char) : skipBlanks ('[' :: others) = '[' :: others := rfl
  have closing : skipBlanks (gap ++ ']' :: rest) = ']' :: rest := skipBlanks_append blank _
  simp only [readValue, solid, closing]

theorem readValue_emptyObject (blank : Blank gap) :
    readValue (fuel + 1) ('{' :: (gap ++ '}' :: rest)) = some (object [], rest) := by
  have solid (others : List Char) : skipBlanks ('{' :: others) = '{' :: others := rfl
  have closing : skipBlanks (gap ++ '}' :: rest) = '}' :: rest := skipBlanks_append blank _
  simp only [readValue, solid, closing]

theorem readValue_array (read : readItems fuel characters = some (items, rest)) :
    readValue (fuel + 1) ('[' :: characters) = some (array items, rest) := by
  have solid : skipBlanks ('[' :: characters) = '[' :: characters := rfl
  simp only [readValue, solid]
  split
  · rename_i closing
    rw [← readItems_skipBlanks, closing, readItems_end] at read
    cases read
  · rw [readItems_skipBlanks, read]
    rfl

theorem readValue_object (read : readFields fuel characters = some (fields, rest)) :
    readValue (fuel + 1) ('{' :: characters) = some (object fields, rest) := by
  have solid : skipBlanks ('{' :: characters) = '{' :: characters := rfl
  simp only [readValue, solid]
  split
  · rename_i closing
    rw [← readFields_skipBlanks, closing, readFields_end] at read
    cases read
  · rw [readFields_skipBlanks, read]
    rfl

theorem readItems_last (blank : Blank gap)
    (read : readValue fuel characters = some (item, gap ++ ']' :: rest)) :
    readItems (fuel + 1) characters = some ([item], rest) := by
  have closing : skipBlanks (gap ++ ']' :: rest) = ']' :: rest := skipBlanks_append blank _
  simp only [readItems, read, closing]

theorem readItems_more (blank : Blank gap)
    (read : readValue fuel characters = some (item, gap ++ ',' :: more))
    (later : readItems fuel more = some (items, rest)) :
    readItems (fuel + 1) characters = some (item :: items, rest) := by
  have onward : skipBlanks (gap ++ ',' :: more) = ',' :: more := skipBlanks_append blank _
  simp only [readItems, read, onward, later, Option.map_some]

theorem toList_renderText (text : String) :
    (renderText text).toList = '"' :: (text.toList.flatMap escapedChar ++ ['"']) := by
  simp [renderText]

theorem length_le_flatMap (characters : List Char) :
    characters.length ≤ (characters.flatMap escapedChar).length := by
  induction characters with
  | nil => exact Nat.le_refl 0
  | cons character characters ih =>
      have filled : 0 < (escapedChar character).length := by
        unfold escapedChar
        split
        case h_8 =>
          split
          · simp
          · split
            · simp
            · exact Nat.one_pos
        all_goals exact Nat.two_pos
      rw [List.flatMap_cons, List.length_append, List.length_cons]
      omega

/-- A text up to its closing quote is read with any fuel that the reader gives it. -/
theorem readText_spelled (text : String) (rest : List Char) :
    readText ((text.toList.flatMap escapedChar ++ '"' :: rest).length + 1) []
      (text.toList.flatMap escapedChar ++ '"' :: rest) = some (text, rest) := by
  have long := length_le_flatMap text.toList
  rw [readText_flatMap text.toList (by rw [List.length_append]; omega)]
  simp

theorem readValue_string (fuel : Nat) (text : String) (rest : List Char) :
    readValue (fuel + 1) ((renderText text).toList ++ rest) = some (string text, rest) := by
  have solid (characters : List Char) : skipBlanks ('"' :: characters) = '"' :: characters := rfl
  simp only [toList_renderText, List.cons_append, List.append_assoc, List.nil_append, readValue,
    solid, readText_spelled, Option.map_some]

theorem readFields_last (before : Blank front) (apart : Blank between) (blank : Blank gap)
    (read : readValue fuel characters = some (value, gap ++ '}' :: rest)) :
    readFields (fuel + 1)
        (front ++ ((renderText name).toList ++ (between ++ ':' :: characters))) =
      some ([(name, value)], rest) := by
  have quoted (others : List Char) : skipBlanks ('"' :: others) = '"' :: others := rfl
  have colon : skipBlanks (between ++ ':' :: characters) = ':' :: characters :=
    skipBlanks_append apart _
  have closing : skipBlanks (gap ++ '}' :: rest) = '}' :: rest := skipBlanks_append blank _
  simp only [readFields, skipBlanks_append before, toList_renderText, List.cons_append,
    List.append_assoc, List.nil_append, quoted, readText_spelled, colon, read, closing]

theorem readFields_more (before : Blank front) (apart : Blank between) (blank : Blank gap)
    (read : readValue fuel characters = some (value, gap ++ ',' :: more))
    (later : readFields fuel more = some (fields, rest)) :
    readFields (fuel + 1)
        (front ++ ((renderText name).toList ++ (between ++ ':' :: characters))) =
      some ((name, value) :: fields, rest) := by
  have quoted (others : List Char) : skipBlanks ('"' :: others) = '"' :: others := rfl
  have colon : skipBlanks (between ++ ':' :: characters) = ':' :: characters :=
    skipBlanks_append apart _
  have onward : skipBlanks (gap ++ ',' :: more) = ',' :: more := skipBlanks_append blank _
  simp only [readFields, skipBlanks_append before, toList_renderText, List.cons_append,
    List.append_assoc, List.nil_append, quoted, readText_spelled, colon, read, onward, later,
    Option.map_some]

/-- A reader with as much fuel as there are characters takes just these characters for
a part. -/
def Part.Reads (written : List Char) : Part → Prop
  | .value content => ∀ fuel rest, written.length ≤ fuel →
    readValue fuel (written ++ rest) = some (content, rest)
  | .items contents => ∀ fuel rest, written.length ≤ fuel →
    readItems fuel (written ++ rest) = some (contents, rest)
  | .fields contents => ∀ fuel rest, written.length ≤ fuel →
    readFields fuel (written ++ rest) = some (contents, rest)

theorem Spells.reads {part : Part} {written : List Char} (spells : Spells part written) :
    part.Reads written := by
  induction spells with
  | null | yes | no =>
      intro fuel rest enough
      cases fuel with
      | zero => cases enough
      | succ fuel => rfl
  | string text =>
      intro fuel rest enough
      cases fuel with
      | zero => simp [toList_renderText] at enough
      | succ fuel => exact readValue_string fuel text rest
  | emptyArray blank =>
      intro fuel rest enough
      cases fuel with
      | zero => cases enough
      | succ fuel =>
          rw [List.cons_append, List.append_assoc]
          exact readValue_emptyArray blank
  | array inside ih =>
      intro fuel rest enough
      cases fuel with
      | zero => cases enough
      | succ fuel => exact readValue_array (ih fuel rest (Nat.le_of_succ_le_succ enough))
  | emptyObject blank =>
      intro fuel rest enough
      cases fuel with
      | zero => cases enough
      | succ fuel =>
          rw [List.cons_append, List.append_assoc]
          exact readValue_emptyObject blank
  | object inside ih =>
      intro fuel rest enough
      cases fuel with
      | zero => cases enough
      | succ fuel => exact readValue_object (ih fuel rest (Nat.le_of_succ_le_succ enough))
  | @spaced gap written value blank spelled ih =>
      intro fuel rest enough
      rw [List.length_append] at enough
      rw [← readValue_skipBlanks, List.append_assoc, skipBlanks_append blank,
        readValue_skipBlanks]
      exact ih fuel rest (by omega)
  | @lastItem item written gap spelled blank ih =>
      intro fuel rest enough
      simp only [List.length_append, List.length_singleton] at enough
      cases fuel with
      | zero => omega
      | succ fuel =>
          simp only [List.append_assoc, List.singleton_append]
          exact readItems_last blank (ih fuel _ (by omega))
  | @item item items written gap others spelled blank later ih ihLater =>
      intro fuel rest enough
      simp only [List.length_append, List.length_cons] at enough
      cases fuel with
      | zero => omega
      | succ fuel =>
          simp only [List.append_assoc, List.cons_append]
          exact readItems_more blank (ih fuel _ (by omega)) (ihLater fuel rest (by omega))
  | @lastField name value front between written gap before apart spelled blank ih =>
      intro fuel rest enough
      simp only [List.length_append, List.length_cons] at enough
      cases fuel with
      | zero => omega
      | succ fuel =>
          simp only [List.append_assoc, List.cons_append, List.nil_append]
          exact readFields_last before apart blank (ih fuel _ (by omega))
  | @field name value fields front between written gap others before apart spelled blank later ih
      ihLater =>
      intro fuel rest enough
      simp only [List.length_append, List.length_cons] at enough
      cases fuel with
      | zero => omega
      | succ fuel =>
          simp only [List.append_assoc, List.cons_append]
          exact readFields_more before apart blank (ih fuel _ (by omega))
            (ihLater fuel rest (by omega))

/-- A text that spells a value, and ends in blanks, is read as this value. -/
theorem parse_of_spells {text : String} {written : List Char}
    (spells : Spells (.value value) written) (blank : Blank gap)
    (same : text.toList = written ++ gap) : parse text = some value := by
  have enough : written.length ≤ 2 * (written ++ gap).length + 2 := by
    rw [List.length_append]
    omega
  have read := spells.reads (2 * (written ++ gap).length + 2) gap enough
  have void : skipBlanks gap = [] := by
    rw [← List.append_nil gap, skipBlanks_append blank]
    rfl
  simp only [parse, same, read, void, List.isEmpty_nil, if_true]

end Reading

section Writing

/-- Parts of a structured value in which there are no numbers: what is read in one go
never begins with the end of a list or of an object. -/
inductive Unnumbered : Part → Prop
  | null : Unnumbered (.value .null)
  | bool (value : Bool) : Unnumbered (.value (.bool value))
  | string (text : String) : Unnumbered (.value (.string text))
  | emptyArray : Unnumbered (.value (.array []))
  | array {items : List Json} (inside : Unnumbered (.items items)) :
      Unnumbered (.value (.array items))
  | emptyObject : Unnumbered (.value (.object []))
  | object {fields : List (String × Json)} (inside : Unnumbered (.fields fields)) :
      Unnumbered (.value (.object fields))
  | lastItem {item : Json} (here : Unnumbered (.value item)) : Unnumbered (.items [item])
  | item {item next : Json} {items : List Json} (here : Unnumbered (.value item))
      (later : Unnumbered (.items (next :: items))) : Unnumbered (.items (item :: next :: items))
  | lastField {name : String} {value : Json} (here : Unnumbered (.value value)) :
      Unnumbered (.fields [(name, value)])
  | field {name : String} {value : Json} {next : String × Json} {fields : List (String × Json)}
      (here : Unnumbered (.value value)) (later : Unnumbered (.fields (next :: fields))) :
      Unnumbered (.fields ((name, value) :: next :: fields))

/-- A part on one line, with the bracket or brace that ends it. -/
def Part.line : Part → String
  | .value content => content.render
  | .items contents => renderItems contents ++ "]"
  | .fields contents => renderFields contents ++ "\x7d"

/-- A part over several lines, for a place at some level. -/
def Part.lines (level : Nat) : Part → String
  | .value content => content.renderLines level
  | .items contents =>
    "\n" ++ renderItemLines (level + 1) contents ++ "\n" ++ indentation level ++ "]"
  | .fields contents =>
    "\n" ++ renderFieldLines (level + 1) contents ++ "\n" ++ indentation level ++ "\x7d"

theorem blank_nil : Blank [] :=
  List.forall_mem_nil _

theorem blank_space : Blank [' '] :=
  List.forall_mem_singleton.mpr (.inl rfl)

theorem blank_newline (level : Nat) : Blank ('\n' :: (indentation level).toList) := by
  refine List.forall_mem_cons.mpr ⟨.inr (.inl rfl), ?_⟩
  rw [indentation, String.toList_ofList]
  exact fun character member => .inl (List.eq_of_mem_replicate member)

theorem Unnumbered.spells_line {part : Part} (unnumbered : Unnumbered part) :
    Spells part part.line.toList := by
  induction unnumbered with
  | null => exact .null
  | bool value =>
      cases value with
      | false => exact .no
      | true => exact .yes
  | string text => exact .string text
  | emptyArray => exact .emptyArray blank_nil
  | @array items inside ih =>
      have written : (Part.line (.value (.array items))).toList =
          '[' :: (Part.line (.items items)).toList := by
        simp [Part.line, render]
      rw [written]
      exact .array ih
  | emptyObject => exact .emptyObject blank_nil
  | @object fields inside ih =>
      have written : (Part.line (.value (.object fields))).toList =
          '{' :: (Part.line (.fields fields)).toList := by
        simp [Part.line, render]
      rw [written]
      exact .object ih
  | @lastItem item here ih =>
      rw [Part.line, renderItems, String.toList_append]
      exact .lastItem ih blank_nil
  | @item item next items here later ih ihLater =>
      have written : (Part.line (.items (item :: next :: items))).toList =
          item.render.toList ++ ([] ++ ',' :: (Part.line (.items (next :: items))).toList) := by
        simp [Part.line, renderItems]
      rw [written]
      exact .item ih blank_nil ihLater
  | @lastField name value here ih =>
      have written : (Part.line (.fields [(name, value)])).toList =
          [] ++ ((renderText name).toList ++
            ([] ++ ':' :: (value.render.toList ++ ([] ++ ['}'])))) := by
        simp [Part.line, renderFields]
      rw [written]
      exact .lastField blank_nil blank_nil ih blank_nil
  | @field name value next fields here later ih ihLater =>
      have written : (Part.line (.fields ((name, value) :: next :: fields))).toList =
          [] ++ ((renderText name).toList ++ ([] ++ ':' :: (value.render.toList ++
            ([] ++ ',' :: (Part.line (.fields (next :: fields))).toList)))) := by
        simp [Part.line, renderFields]
      rw [written]
      exact .field blank_nil blank_nil ih blank_nil ihLater

theorem Unnumbered.spells_lines {part : Part} (unnumbered : Unnumbered part) (level : Nat) :
    Spells part (part.lines level).toList := by
  induction unnumbered generalizing level with
  | null =>
      simp only [Part.lines, renderLines]
      exact .null
  | bool value =>
      simp only [Part.lines, renderLines]
      cases value with
      | false => exact .no
      | true => exact .yes
  | string text =>
      simp only [Part.lines, renderLines]
      exact .string text
  | emptyArray =>
      simp only [Part.lines, renderLines]
      exact .emptyArray blank_nil
  | @array items inside ih =>
      have written : (Part.lines level (.value (.array items))).toList =
          '[' :: (Part.lines level (.items items)).toList := by
        cases inside <;> simp [Part.lines, renderLines]
      rw [written]
      exact .array (ih level)
  | emptyObject =>
      simp only [Part.lines, renderLines]
      exact .emptyObject blank_nil
  | @object fields inside ih =>
      have written : (Part.lines level (.value (.object fields))).toList =
          '{' :: (Part.lines level (.fields fields)).toList := by
        cases inside <;> simp [Part.lines, renderLines]
      rw [written]
      exact .object (ih level)
  | @lastItem item here ih =>
      have written : (Part.lines level (.items [item])).toList =
          ('\n' :: (indentation (level + 1)).toList ++ (item.renderLines (level + 1)).toList) ++
            ('\n' :: (indentation level).toList ++ [']']) := by
        simp [Part.lines, renderItemLines]
      rw [written]
      exact .lastItem (.spaced (blank_newline _) (ih _)) (blank_newline _)
  | @item item next items here later ih ihLater =>
      have written : (Part.lines level (.items (item :: next :: items))).toList =
          ('\n' :: (indentation (level + 1)).toList ++ (item.renderLines (level + 1)).toList) ++
            ([] ++ ',' :: (Part.lines level (.items (next :: items))).toList) := by
        simp [Part.lines, renderItemLines]
      rw [written]
      exact .item (.spaced (blank_newline _) (ih _)) blank_nil (ihLater level)
  | @lastField name value here ih =>
      have written : (Part.lines level (.fields [(name, value)])).toList =
          '\n' :: (indentation (level + 1)).toList ++ ((renderText name).toList ++
            ([] ++ ':' :: (([' '] ++ (value.renderLines (level + 1)).toList) ++
              ('\n' :: (indentation level).toList ++ ['}'])))) := by
        simp [Part.lines, renderFieldLines]
      rw [written]
      exact .lastField (blank_newline _) blank_nil (.spaced blank_space (ih _)) (blank_newline _)
  | @field name value next fields here later ih ihLater =>
      have written : (Part.lines level (.fields ((name, value) :: next :: fields))).toList =
          '\n' :: (indentation (level + 1)).toList ++ ((renderText name).toList ++
            ([] ++ ':' :: (([' '] ++ (value.renderLines (level + 1)).toList) ++
              ([] ++ ',' :: (Part.lines level (.fields (next :: fields))).toList)))) := by
        simp [Part.lines, renderFieldLines]
      rw [written]
      exact .field (blank_newline _) blank_nil (.spaced blank_space (ih _)) blank_nil
        (ihLater level)

/-- A value without numbers is read back from one line. -/
theorem Unnumbered.parse_render {value : Json} (unnumbered : Unnumbered (.value value)) :
    parse value.render = some value :=
  parse_of_spells unnumbered.spells_line blank_nil (List.append_nil _).symm

/-- A value without numbers is read back from several lines. -/
theorem Unnumbered.parse_pretty {value : Json} (unnumbered : Unnumbered (.value value)) :
    parse value.pretty = some value :=
  parse_of_spells (unnumbered.spells_lines 0) blank_nil (List.append_nil _).symm

end Writing

end Json

end Lineage
