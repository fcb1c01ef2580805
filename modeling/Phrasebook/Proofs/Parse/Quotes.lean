import Phrasebook.Proofs.Parse.Alike
import Phrasebook.Proofs.Step
import Phrasebook.Proofs.Text.Standing

/-!
# Reading literal strings

A string in quotes reads back as itself, and strings with commas between them as the list of them, whatever
the strings hold. Each reader of quotes goes through a quoted string and is left as it was before it.
-/

namespace Phrasebook.Parse
open Text

/-- Literal strings with commas between them. -/
def quotes (texts : List (List Char)) : List Char :=
  join [',', ' '] (texts.map quote)

theorem quotes_cons_cons (text next : List Char) (texts : List (List Char)) :
    quotes (text :: next :: texts) = quote text ++ ',' :: ' ' :: quotes (next :: texts) := by
  simp [quotes, join]

/-- Literal strings start with a quote and end with one. -/
theorem quotes_eq (text : List Char) (texts : List (List Char)) :
    ∃ inner, quotes (text :: texts) = '"' :: inner ++ ['"'] := by
  induction texts generalizing text with
  | nil => exact ⟨doubleQuotes text, rfl⟩
  | cons next texts ih =>
    obtain ⟨inner, same⟩ := ih next
    refine ⟨doubleQuotes text ++ '"' :: ',' :: ' ' :: '"' :: inner, ?_⟩
    simp [quotes_cons_cons, same, quote]

/-- A line that ends in literal strings ends with a quote. -/
theorem quotes_behind {texts : List (List Char)} (some_ : texts ≠ []) (letter : Char) (word : List Char) :
    ∃ inner, (letter :: word) ++ ' ' :: quotes texts = letter :: inner ++ ['"'] := by
  obtain ⟨text, texts, rfl⟩ := List.exists_cons_of_ne_nil some_
  obtain ⟨inner, same⟩ := quotes_eq text texts
  refine ⟨word ++ ' ' :: '"' :: inner, ?_⟩
  simp only [same, List.append_assoc, List.cons_append]

section Unquote

/-- A quote that stands alone is found behind a quoted string. -/
theorem undoubleQuotes?_alone (text rest : List Char) :
    undoubleQuotes? (doubleQuotes text ++ '"' :: ',' :: rest) = none := by
  induction text with
  | nil => simp [doubleQuotes, undoubleQuotes?]
  | cons c text ih =>
    by_cases quote : c = '"'
    · simp [doubleQuotes, quote, undoubleQuotes?, ih]
    · simp [doubleQuotes, quote, undoubleQuotes?, ih]

/-- Several strings are not taken for one. -/
theorem unquote?_quotes (text next : List Char) (texts : List (List Char)) :
    unquote? (quotes (text :: next :: texts)) = none := by
  obtain ⟨inner, same⟩ := quotes_eq next texts
  have whole : quotes (text :: next :: texts) =
      '"' :: (doubleQuotes text ++ '"' :: ',' :: (' ' :: '"' :: inner) ++ ['"']) := by
    simp [quotes_cons_cons, same, quote]
  have ends : (doubleQuotes text ++ '"' :: ',' :: (' ' :: '"' :: inner) ++ ['"']).getLast? = some '"' :=
    List.getLast?_concat
  rw [whole, unquote?, ends]
  simp only [beq_self_eq_true, if_true, List.dropLast_concat]
  exact undoubleQuotes?_alone text _

/-- A text that starts with another sign is no string. -/
theorem unquote?_of_head {text : List Char} (other : text.head? ≠ some '"') : unquote? text = none := by
  unfold unquote?
  split
  · exact absurd rfl other
  · rfl

/-- Brackets enclose no text that starts with another sign. -/
theorem isEnclosed_of_head {left right : Char} {text : List Char} (other : text.head? ≠ some left) :
    isEnclosed left right text = false := by
  rw [isEnclosed, beq_eq_false_iff_ne.2 other, Bool.false_and]

end Unquote

section Split

variable {l : Line} {pos : Nat} {text more : List Char} {c : Char} {separators : List String} {s : ListScan}

/-- Where no separator may stand, the scan goes on. -/
theorem splitItems_held (h : l.Stands pos (c :: more)) (held : (s.next c).isFree c = false) :
    splitItems l separators s pos = splitItems l separators (s.next c) (pos + 1) := by
  obtain ⟨inside, there⟩ := Array.getElem?_eq_some_iff.1 h.head
  rw [splitItems, dif_pos inside]
  simp only [there, held, Bool.false_eq_true, if_false]

/-- Where no separator stands, the scan goes on. -/
theorem splitItems_free (h : l.Stands pos (c :: more))
    (none : separatorAt? l (s.next c).itemStart pos separators = none) :
    splitItems l separators s pos = splitItems l separators (s.next c) (pos + 1) := by
  obtain ⟨inside, there⟩ := Array.getElem?_eq_some_iff.1 h.head
  rw [splitItems, dif_pos inside]
  simp only [there, none, ite_self]

/-- Within quotes the scan goes on to the quote that ends them. -/
theorem splitItems_doubled (text : List Char) {pos : Nat} (quoted : s.quoted = true)
    (h : l.Stands pos (doubleQuotes text ++ ['"'])) :
    splitItems l separators s pos =
      splitItems l separators { s with quoted := false } (pos + (doubleQuotes text).length + 1) := by
  have turn (s : ListScan) : s.next '"' = { s with quoted := !s.quoted } := rfl
  have held (s : ListScan) : (s.next '"').isFree '"' = false := by simp [ListScan.isFree]
  induction text generalizing pos with
  | nil =>
    have first : l.Stands pos ('"' :: []) := h
    rw [splitItems_held first (held s), turn, quoted]
    rfl
  | cons c text ih =>
    by_cases quote : c = '"'
    · subst quote
      have first : l.Stands pos ('"' :: '"' :: (doubleQuotes text ++ ['"'])) := h
      have back : (s.next '"').next '"' = s := by
        rw [turn, turn]
        simp
      rw [splitItems_held first (held s), splitItems_held first.tail (held _), back, ih first.tail.tail]
      congr 1
      simp only [doubleQuotes, beq_self_eq_true, if_true, List.length_cons]
      omega
    · have solid : (c == '"') = false := beq_eq_false_iff_ne.2 quote
      have same : doubleQuotes (c :: text) = c :: doubleQuotes text := by
        simp only [doubleQuotes, solid, Bool.false_eq_true, if_false]
      rw [same] at h ⊢
      have first : l.Stands pos (c :: (doubleQuotes text ++ ['"'])) := h
      have stays : s.next c = s := by simp [ListScan.next, solid, quoted]
      have held : (s.next c).isFree c = false := by
        rw [stays]
        simp [ListScan.isFree, quoted]
      rw [splitItems_held first held, stays, ih first.tail, List.length_cons]
      congr 1
      omega

/-- **The scan for separators is behind a quoted string what it was before it.** -/
theorem splitItems_quote (text : List Char) (unquoted : s.quoted = false) (h : l.Stands pos (quote text)) :
    splitItems l separators s pos = splitItems l separators s (pos + (quote text).length) := by
  have held : (s.next '"').isFree '"' = false := by simp [ListScan.isFree]
  have first : l.Stands pos ('"' :: (doubleQuotes text ++ ['"'])) := h
  have opened : s.next '"' = { s with quoted := true } := by simp [ListScan.next, unquoted]
  have shut : { s with quoted := false } = s := by rw [← unquoted]
  have inner : splitItems l separators { s with quoted := true } (pos + 1) =
      splitItems l separators { s with quoted := false } (pos + 1 + (doubleQuotes text).length + 1) :=
    splitItems_doubled text rfl first.tail
  rw [splitItems_held first held, opened, inner, shut]
  congr 1
  simp only [quote, List.length_append, List.length_cons, List.length_nil]
  omega

/-- No separator starts with a blank. -/
theorem separatorAt?_blank (blank : l.skipBlanks pos ≠ pos) (itemStart : Nat) (separators : List String) :
    separatorAt? l itemStart pos separators = none := by
  induction separators with
  | nil => rfl
  | cons first rest ih =>
    simp only [separatorAt?]
    split
    · exact ih
    · split
      · exact ih
      · simp only [bne_iff_ne.2 blank, Bool.true_or, if_true]
        exact ih

/-- A comma separates where it is tried first. -/
theorem separatorAt?_comma (h : l.Stands pos (',' :: more)) (itemStart : Nat) (others : List String) :
    separatorAt? l itemStart pos ("," :: others) = some (",", pos + 1) := by
  have here : l.skipBlanks pos = pos := h.skipBlanks (by decide)
  have comma : l.Stands pos [','] := List.prefix_append [','] more |>.trans h
  have fits : l.matchFrom [','] pos = some (pos + 1) := comma.matchFrom (by decide)
  have chars : ",".toList = [','] := rfl
  have solid : isWordChar ',' = false := by decide
  simp [separatorAt?, chars, solid, Line.matchLiteral, here, fits]

/-- A stretch with a quote in it is not blank. -/
theorem not_isBlankText_slice {start stop : Nat} (ahead : start ≤ pos) (before : pos < stop)
    (h : l.Stands pos ('"' :: more)) : isBlankText (l.slice start stop) = false := by
  have inside := h.lt_size
  have mem : '"' ∈ l.slice start stop := by
    refine List.mem_of_getElem? (i := pos - start) ?_
    rw [Line.slice, Array.getElem?_toList, Array.getElem?_extract, if_pos (by simp only [Line.size] at inside; omega),
      show start + (pos - start) = pos by omega]
    exact h.head
  have solid : isBlank '"' = false := by decide
  rw [isBlankText, List.all_eq_false]
  exact ⟨'"', mem, by rw [solid]; exact Bool.false_ne_true⟩

/-- What a stretch holds besides the blanks at its ends. -/
def held (l : Line) (stretch : Nat × Nat) : List Char :=
  l.slice (l.trimmed stretch.1 stretch.2).1 (l.trimmed stretch.1 stretch.2).2

/-- Blanks in front of a quoted string do not count. -/
theorem held_quote {itemStart : Nat} (text : List Char) (h : l.Stands pos (quote text))
    (skipped : l.skipBlanks itemStart = pos) : held l (itemStart, pos + (quote text).length) = quote text := by
  have trimmed : l.trimmed itemStart (pos + (quote text).length) = (pos, pos + (quote text).length) :=
    Line.Stands.trimmed h (by decide) skipped
  unfold held
  rw [trimmed]
  exact h.slice

/-- A comma and the blank behind it end an item. -/
theorem splitItems_comma (others : List String) (unquoted : s.quoted = false) (flat : s.depth = 0)
    (h : l.Stands pos (',' :: ' ' :: more)) (full : isBlankText (l.slice s.itemStart pos) = false) :
    splitItems l ("," :: others) s pos =
      splitItems l ("," :: others) (s.separate pos "," (pos + 1)) (pos + 2) := by
  obtain ⟨inside, there⟩ := Array.getElem?_eq_some_iff.1 h.head
  have stays : s.next ',' = s := by simp [ListScan.next, unquoted]
  have free : s.isFree ',' = true := by simp [ListScan.isFree, unquoted, flat]
  have comma := separatorAt?_comma h s.itemStart others
  have first : splitItems l ("," :: others) s pos =
      splitItems l ("," :: others) (s.separate pos "," (pos + 1)) (pos + 1) := by
    rw [splitItems, dif_pos inside]
    simp only [there, stays, free, if_true, comma, full, Bool.false_eq_true, if_false, Nat.max_self]
  have blank : l.skipBlanks (pos + 1) ≠ pos + 1 := by
    intro solid
    refine l.not_blankAt_skipBlanks (pos + 1) ?_
    rw [solid]
    exact Line.blankAt_iff.2 ⟨' ', h.tail.head, by decide⟩
  have stays' : (s.separate pos "," (pos + 1)).next ' ' = s.separate pos "," (pos + 1) := by
    simp [ListScan.next, ListScan.separate, unquoted]
  rw [first, splitItems_free h.tail (separatorAt?_blank blank _ _), stays']

/-- **Quoted strings with commas between them are split into the strings.** -/
theorem splitItems_quotes (others : List String) (text : List Char) (texts : List (List Char))
    (unquoted : s.quoted = false) (flat : s.depth = 0) (several : s.items ≠ [] ∨ texts ≠ [])
    (h : l.Stands pos (quotes (text :: texts))) (whole : pos + (quotes (text :: texts)).length = l.size)
    (skipped : l.skipBlanks s.itemStart = pos) :
    ∃ stretches, splitItems l ("," :: others) s pos = some (s.items ++ stretches, s.conjunction) ∧
      stretches.map (held l) = (text :: texts).map quote := by
  have ahead : s.itemStart ≤ pos := skipped ▸ l.le_skipBlanks s.itemStart
  have positive (text : List Char) : 0 < (quote text).length := by simp [quote]
  induction texts generalizing text s pos with
  | nil =>
    have h : l.Stands pos (quote text) := h
    have whole : pos + (quote text).length = l.size := whole
    have some_ : s.items.isEmpty = false := by simpa using several
    have full : isBlankText (l.slice s.itemStart l.size) = false :=
      not_isBlankText_slice ahead (by have := positive text; omega) h
    refine ⟨[(s.itemStart, l.size)], ?_, ?_⟩
    · have outside : ¬ l.size < l.chars.size := Nat.lt_irrefl l.size
      rw [splitItems_quote text unquoted h, whole, splitItems, dif_neg outside]
      have full : isBlankText (l.slice s.itemStart l.chars.size) = false := full
      simp only [some_, full, Bool.or_false, Bool.false_eq_true, if_false]
      rfl
    · have inner := held_quote text h skipped
      rw [whole] at inner
      rw [List.map_singleton, inner]
      rfl
  | cons next texts ih =>
    rw [quotes_cons_cons] at h whole
    have here := h.left
    have behind := h.right
    have full : isBlankText (l.slice s.itemStart (pos + (quote text).length)) = false :=
      not_isBlankText_slice ahead (by have := positive text; omega) here
    obtain ⟨inner, starts⟩ := quotes_eq next texts
    have blank : l.skipBlanks (pos + (quote text).length + 1) = pos + (quote text).length + 2 := by
      have behind := behind.tail
      rw [starts] at behind
      exact behind.skipBlank (by decide)
    simp only [List.length_append, List.length_cons] at whole
    obtain ⟨stretches, split, all⟩ := ih next
      (s := s.separate (pos + (quote text).length) "," (pos + (quote text).length + 1)) unquoted flat
      (.inl (by simp [ListScan.separate])) behind.tail.tail (by omega) blank (by rw [← blank]; exact l.le_skipBlanks _)
    refine ⟨(s.itemStart, pos + (quote text).length) :: stretches, ?_, ?_⟩
    · rw [splitItems_quote text unquoted here, splitItems_comma others unquoted flat behind full, split]
      have conjunction : (lowerAsciiString "," == "or") = false := by decide
      simp [ListScan.separate, conjunction]
    · rw [List.map_cons, held_quote text here skipped, all]
      rfl

end Split

section Unread

variable {types : TypeSystem} {text : String}

/-- None of the types of a table reads a text. -/
def Unread (table : TypeTable) (text : String) : Prop :=
  ∀ entry ∈ table.entries, entry.spec.read? text = none

theorem readAny?_unread {entries : List TypeEntry} (unread : ∀ entry ∈ entries, entry.spec.read? text = none)
    (id : TypeId) : TypeTable.readAny? text entries id = none := by
  induction entries generalizing id with
  | nil => rfl
  | cons entry rest ih =>
    have first : (if entry.spec.universal then none else entry.spec.read? text) = none := by
      rw [unread entry List.mem_cons_self, ite_self]
    rw [TypeTable.readAny?, first]
    exact ih (fun entry mem => unread entry (List.mem_cons_of_mem _ mem)) (id + 1)

theorem readLiteral_unread {table : TypeTable} (unread : Unread table text) (id : TypeId) :
    ∃ cause, table.readLiteral id text = .error cause := by
  unfold TypeTable.readLiteral
  split
  · exact ⟨_, rfl⟩
  next entry found =>
    have mem : entry ∈ table.entries := Array.mem_of_getElem? found
    have any : TypeTable.readAny? text table.entries.toList 0 = none :=
      readAny?_unread (fun entry mem => unread entry (Array.mem_toList_iff.1 mem)) 0
    simp only [unread entry mem, any, Option.map_none, ite_self]
    exact ⟨_, rfl⟩

/-- **A text that no type reads is no literal**, whatever the target. -/
theorem literal?_unread (unread : Unread types.table text) (target : Target) :
    literal? types text target = none := by
  have own : ownLiteral? types text target = none := by
    refine List.findSome?_eq_none_iff.2 fun t _ => ?_
    obtain ⟨cause, failed⟩ := readLiteral_unread unread t.type
    rw [failed]
  have other : otherLiteral? types text target = none := by
    refine List.findSome?_eq_none_iff.2 fun (entry, id) mem => ?_
    have among : entry ∈ types.table.entries.toList :=
      List.mem_of_getElem? (List.mem_zipIdx_iff_getElem?.1 mem)
    simp only [unread entry (Array.mem_toList_iff.1 among), Option.bind_none, ite_self]
  rw [literal?, own, other]
  rfl

end Unread

/-- An expression is the literal string, or if there are several the list of them. -/
def IsStrings (e : Expr) : List (List Char) → Prop
  | [text] => e.value? = some (.string (String.ofList text))
  | texts => ∃ items type span, e = .list items .and type span ∧
    items.map Expr.value? = texts.map fun text => some (.string (String.ofList text))

/-- Several strings are a list. -/
theorem IsStrings.several {e : Expr} {texts : List (List Char)} (h : IsStrings e texts) (several : 2 ≤ texts.length) :
    ∃ items type span, e = .list items .and type span ∧
      items.map Expr.value? = texts.map fun text => some (.string (String.ofList text)) := by
  match texts, several with
  | _ :: _ :: _, _ => exact h

/-- Literal strings fill a target as they are. -/
structure TakesStrings (types : TypeSystem) (string : TypeId) (target : Target) : Prop where
  literals : (target.acceptance == .nonLiterals) = false
  resolves : ∃ single, types.table.resolve "string" = some ⟨string, single⟩
  fits : (target.types.any fun t => types.table.isAssignable string t.type) = true

section Reading

variable {r : Registry} {line : Line} {start stop : Nat} {target : Target} {c : Context} {string : TypeId}

theorem TakesStrings.item (takes : TakesStrings r.types string target) :
    TakesStrings r.types string target.item where
  literals := takes.literals
  resolves := takes.resolves
  fits := by
    have fits := takes.fits
    simp only [Target.item, List.any_map]
    exact fits

theorem readLiteral?_quote (takes : TakesStrings r.types string target) (text : List Char) :
    readLiteral? r.types (quote text) target =
      some (.string (String.ofList text), ⟨string, target.single⟩) := by
  obtain ⟨single, resolves⟩ := takes.resolves
  simp only [readLiteral?, takes.literals, unquote?_quote, resolves, Option.bind_some, coerceValue?, takes.fits,
    Bool.false_eq_true, if_false, if_true]

/-- What starts with neither a parenthesis nor a brace is a literal, a list or the syntax of an expression. -/
theorem readForms_bare {text : List Char} (read : Reader) (here : line.slice start stop = text) (some_ : text ≠ [])
    (paren : text.head? ≠ some '(') (brace : text.head? ≠ some '{') :
    readForms r read line start stop target = (do
      let span ← spanOf line start stop
      match readLiteral? r.types text target with
      | some (value, type) => pure (.found (.literal value type span))
      | none =>
        match ← if target.single then pure none else readList r read line start stop target with
        | some e => pure (.found e)
        | none => readSyntax r read line start stop target) := by
  have parens : isEnclosed '(' ')' text = false := isEnclosed_of_head paren
  have braces : isEnclosed '{' '}' text = false := isEnclosed_of_head brace
  have full : text.isEmpty = false := List.isEmpty_eq_false_iff.2 some_
  unfold readForms readParenthesised
  dsimp only
  rw [here, parens, braces, full]
  rfl

/-- A quoted string is read as its text, and the state stays as it is. -/
theorem ends_readForms_quote (takes : TakesStrings r.types string target) (read : Reader) {text : List Char}
    (here : line.slice start stop = quote text) :
    ∃ span, Ends (readForms r read line start stop target) c
      (.found (.literal (.string (String.ofList text)) ⟨string, target.single⟩ span)) c := by
  refine ⟨c.span (stretchOf line start stop), ?_⟩
  rw [readForms_bare read here (List.cons_ne_nil _ _) (by simp [quote]) (by simp [quote]),
    readLiteral?_quote takes text]
  rfl

/-- At each level a stretch is read by its forms, where it was not turned down before and nobody cancels. -/
theorem ends_readLevel {forms : Reader} {e : Expr} (calm : c.cancellation = {})
    (unknown : c.rejections.get?
      (stretchOf line (line.trimmed start stop).1 (line.trimmed start stop).2, target) = none)
    (inner : Ends (forms line (line.trimmed start stop).1 (line.trimmed start stop).2 target) c.deepen
      (.found e) c.deepen) :
    Ends (readLevel (some forms) line start stop target) c (.found e) c := by
  rcases trimmed : line.trimmed start stop with ⟨low, high⟩
  rw [trimmed] at unknown inner
  have nested : Ends (readNested (some forms) line low high target) c (.found e) c :=
    (ends_checkCancelled_calm calm).bind (Bond.ends_bracket inner)
  unfold readLevel
  have context : Ends Parsing.context c c c := rfl
  simp only [trimmed]
  refine context.bind ?_
  simp only [unknown, ite_self]
  exact nested.bind rfl

/-- A quoted string with blanks around it is read as its text. -/
theorem ends_reader_quote (takes : TakesStrings r.types string target) (levels : Nat) {text : List Char}
    (calm : c.cancellation = {}) (fresh : c.rejections = {}) (here : held line (start, stop) = quote text) :
    ∃ span, Ends (r.reader (levels + 1) line start stop target) c
      (.found (.literal (.string (String.ofList text)) ⟨string, target.single⟩ span)) c := by
  obtain ⟨span, inner⟩ := ends_readForms_quote (c := c.deepen) takes (r.reader levels) here
  exact ⟨span, ends_readLevel calm (by rw [fresh, Table.get?_empty]) inner⟩

/-- Quoted strings that are the items of a list are all read. -/
theorem ends_readItems_quotes (takes : TakesStrings r.types string target) (levels : Nat)
    (calm : c.cancellation = {}) (fresh : c.rejections = {}) {stretches : List (Nat × Nat)}
    {texts : List (List Char)} (here : stretches.map (held line) = texts.map quote) :
    ∃ items, Ends (readItems (r.reader (levels + 1)) line target stretches) c (some items) c ∧
      items.map Expr.value? = texts.map (fun text => some (.string (String.ofList text))) ∧
      ∀ e ∈ items, ∃ value span, e = .literal value ⟨string, target.single⟩ span := by
  induction stretches generalizing texts with
  | nil =>
    have none : texts = [] := List.map_eq_nil_iff.1 here.symm
    subst none
    exact ⟨[], rfl, rfl, nofun⟩
  | cons stretch stretches ih =>
    cases texts with
    | nil => cases here
    | cons text texts =>
      obtain ⟨first, rest⟩ := List.cons.inj here
      obtain ⟨span, read⟩ := ends_reader_quote (c := c) takes levels calm fresh first
      obtain ⟨items, reads, values, literals⟩ := ih rest
      refine ⟨.literal (.string (String.ofList text)) ⟨string, target.single⟩ span :: items, ?_, ?_, ?_⟩
      · exact read.bind (reads.bind rfl)
      · rw [List.map_cons, List.map_cons, values]
        rfl
      · intro e mem
        rcases List.mem_cons.1 mem with rfl | mem
        · exact ⟨_, span, rfl⟩
        · exact literals e mem

/-- Literals read no variables. -/
theorem readsOfItems_literals {items : List Expr} {type : PatternType}
    (literals : ∀ e ∈ items, ∃ value span, e = .literal value type span) : readsOfItems items = [] := by
  induction items with
  | nil => rfl
  | cons e items ih =>
    obtain ⟨value, span, rfl⟩ := literals e List.mem_cons_self
    rw [readsOfItems, ih fun e mem => literals e (List.mem_cons_of_mem _ mem)]
    rfl

/-- The type of a list of literals of one type. -/
theorem listType?_literals {items : List Expr} {single : Bool}
    (literals : ∀ e ∈ items, ∃ value span, e = .literal value ⟨string, single⟩ span) (some_ : items ≠ []) :
    listType? items target = some string := by
  have types : ∀ e ∈ items, e.type.type = string := by
    intro e mem
    obtain ⟨value, span, rfl⟩ := literals e mem
    rfl
  cases items with
  | nil => exact (some_ rfl).elim
  | cons first rest =>
    have same : ((first :: rest).all fun e => e.type.type == string) = true :=
      List.all_eq_true.2 fun e mem => beq_iff_eq.2 (types e mem)
    simp only [listType?, types first List.mem_cons_self, same, if_true]

/-- Several quoted strings with commas between them are read as the list of their texts. -/
theorem ends_readForms_quotes (takes : TakesStrings r.types string target) (several : target.single = false)
    {others : List String} (separators : r.config.listSeparators = "," :: others) (levels : Nat)
    (calm : c.cancellation = {}) (fresh : c.rejections = {}) {text next : List Char} {texts : List (List Char)}
    (unread : literal? r.types (String.ofList (quotes (text :: next :: texts))) target = none)
    (here : line.Stands start (quotes (text :: next :: texts)))
    (whole : start + (quotes (text :: next :: texts)).length = line.size) :
    ∃ e, Ends (readForms r (r.reader (levels + 1)) line start line.size target) c (.found e) c ∧
      IsStrings e (text :: next :: texts) ∧ e.localReads = [] := by
  obtain ⟨inner, shape⟩ := quotes_eq text (next :: texts)
  have slice : line.slice start line.size = quotes (text :: next :: texts) := by
    rw [← whole]
    exact here.slice
  have skipped : line.skipBlanks start = start := by
    rw [shape] at here
    exact here.skipBlanks (by decide)
  have unquoted : readLiteral? r.types (quotes (text :: next :: texts)) target = none := by
    simp only [readLiteral?, takes.literals, unquote?_quotes, unread, Bool.false_eq_true, if_false]
  obtain ⟨stretches, split, all⟩ := splitItems_quotes (s := { itemStart := start }) others text (next :: texts)
    rfl rfl (.inr (List.cons_ne_nil _ _)) here whole skipped
  obtain ⟨items, reads, values, literals⟩ := ends_readItems_quotes (c := c) takes.item levels calm fresh all
  have split : splitList? line start line.size r.config.listSeparators = some (stretches, .and) := by
    rw [splitList?, Line.before_size, separators, split]
    rfl
  have undone : Ends (orUndone (readItems (r.reader (levels + 1)) line target.item stretches)) c (some items) c := by
    have before : Ends Parsing.checkpoint c c.checkpoint c := rfl
    exact before.bind (reads.bind rfl)
  have list : Ends (readList r (r.reader (levels + 1)) line start line.size target) c
      (listOf target .and items (c.span (stretchOf line start line.size))) c := by
    rw [readList_eq, split]
    exact undone.bind rfl
  rw [listOf, listType?_literals literals (by rintro rfl; cases values)] at list
  refine ⟨.list items .and (.several string) (c.span (stretchOf line start line.size)), ?_,
    ⟨items, _, _, rfl, values⟩, readsOfItems_literals literals⟩
  have span : Ends (spanOf line start line.size) c (c.span (stretchOf line start line.size)) c := rfl
  rw [readForms_bare _ slice (by rw [shape]; exact List.cons_ne_nil _ _) (by simp [shape]) (by simp [shape])]
  refine span.bind ?_
  simp only [unquoted, several, Bool.false_eq_true, if_false]
  exact list.bind rfl

/-- **Literal strings are read as they were written**, whatever they hold: a single one as itself, several as the
list of them. -/
theorem ends_reader_quotes (takes : TakesStrings r.types string target) (several : target.single = false)
    {others : List String} (separators : r.config.listSeparators = "," :: others) (levels : Nat)
    (calm : c.cancellation = {}) (fresh : c.rejections = {}) {texts : List (List Char)} (some_ : texts ≠ [])
    (unread : ∀ rest, literal? r.types (String.ofList ('"' :: rest)) target = none)
    (here : line.Stands start (quotes texts)) (whole : start + (quotes texts).length = line.size) :
    ∃ e, Ends (r.reader (levels + 2) line start line.size target) c (.found e) c ∧
      IsStrings e texts ∧ e.localReads = [] := by
  obtain ⟨text, texts, rfl⟩ := List.exists_cons_of_ne_nil some_
  obtain ⟨inner, shape⟩ := quotes_eq text texts
  have trimmed : line.trimmed start line.size = (start, line.size) := by
    rw [shape] at here whole
    rw [← whole]
    have here : line.Stands start (('"' :: inner) ++ ['"']) := here
    exact here.trimmed (by decide) (Line.Stands.skipBlanks here (by decide))
  cases texts with
  | nil =>
    have here : held line (start, line.size) = quote text := by
      unfold held
      rw [trimmed, ← whole]
      exact here.slice
    obtain ⟨span, reads⟩ := ends_reader_quote (c := c) takes (levels + 1) calm fresh here
    exact ⟨_, reads, rfl, rfl⟩
  | cons next texts =>
    have unread : literal? r.types (String.ofList (quotes (text :: next :: texts))) target = none := by
      rw [shape]
      exact unread _
    obtain ⟨e, reads, strings, readless⟩ :=
      ends_readForms_quotes (c := c.deepen) takes several separators levels calm fresh unread here whole
    refine ⟨e, ends_readLevel calm (by rw [fresh, Table.get?_empty]) ?_, strings, readless⟩
    rw [trimmed]
    exact reads

end Reading

end Phrasebook.Parse
