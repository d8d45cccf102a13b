import DiagramFilter.Proofs.Grammar.Acceptance
import DiagramFilter.Proofs.Lexing.Reading
import DiagramFilter.Proofs.Number.ReadBack

/-!
# Text that is put together from pieces

A `Piece` is a text that is read as a phrase of the grammar, wherever it stands and whatever comes
after it, with only two provisos: the text behind it must not go on with its last token, and a
variable has no `<` behind it.  Texts are put together from pieces in the ways in which phrases are
put together from phrases, one lemma for each.
-/

namespace DiagramFilter

open Lexer (Reads)

/-- A text that does not turn a sign right before it into a longer one. -/
def Opens (cs : List Char) : Prop :=
  ∃ c ds, cs = c :: ds ∧ c ≠ '=' ∧ c ≠ '|'

/-- A text that may follow a piece: it does not go on with a word or a number, and starts with `=`
only if that is allowed. -/
def Follows (equals : Bool) (rest : List Char) : Prop :=
  Apart rest ∧ (equals = false → ∀ c ∈ rest.head?, c ≠ '=')

/-- Tokens that may follow a phrase: `<`, which opens a focused expression behind a variable, only
if that is allowed. -/
def Behind (less : Bool) (tail : List Token) : Prop :=
  less = false → ∀ t ∈ tail.head?, t.kind ≠ .compare .lt

/-- What opens an operand does so with any text behind it. -/
theorem Opens.append {cs : List Char} (h : Opens cs) (rest : List Char) : Opens (cs ++ rest) := by
  obtain ⟨c, ds, rfl, hequals, hbar⟩ := h
  exact ⟨c, ds ++ rest, rfl, hequals, hbar⟩

/-- What opens an operand is neither an equals sign nor a bar. -/
theorem Opens.head {cs : List Char} (h : Opens cs) : ∀ c ∈ cs.head?, c ≠ '=' ∧ c ≠ '|' := by
  obtain ⟨c, ds, rfl, hequals, hbar⟩ := h
  simpa using ⟨hequals, hbar⟩

/-- A word does not prolong a sign. -/
theorem IsIdentifier.opens {word : String} (h : IsIdentifier word) : Opens word.toList := by
  obtain ⟨c, cs, hword, hc, -⟩ := h
  refine ⟨c, cs, hword, ?_, ?_⟩ <;> rintro rfl <;> exact absurd hc (by decide)

/-- The end of the text follows anything. -/
theorem Follows.nil (equals : Bool) : Follows equals [] := by
  simp [Follows, Apart]

/-- A character that is no part of a word or number follows anything, if it is not `=`. -/
theorem Follows.cons (equals : Bool) (c : Char) (rest : List Char)
    (hname : Lexer.isNameChar c = false) (hpoint : c ≠ '.') (hequals : c ≠ '=') :
    Follows equals (c :: rest) := by
  simp [Follows, Apart, hname, hpoint, hequals]

/-- A sign follows any piece that `=` may follow. -/
theorem Follows.of_sign (c : Char) (rest : List Char) (hname : Lexer.isNameChar c = false)
    (hpoint : c ≠ '.') : Follows true (c :: rest) := by
  simp [Follows, Apart, hname, hpoint]

/-- Arithmetic follows with its symbol. -/
theorem Follows.arith (op : ArithOp) (rest : List Char) :
    Follows true (op.symbol.toList ++ rest) := by
  cases op <;> exact .of_sign _ _ (by decide) (by decide)

/-- A comparison follows with its symbol. -/
theorem Follows.compare (op : CompareOp) (rest : List Char) :
    Follows true (op.symbol.toList ++ rest) := by
  cases op <;> exact .of_sign _ _ (by decide) (by decide)

/-- A connective follows with its symbol. -/
theorem Follows.junction (c : Connective) (rest : List Char) :
    Follows true (c.symbol.toList ++ rest) := by
  cases c <;> exact .of_sign _ _ (by decide) (by decide)

/-- A token other than `<` stands behind anything. -/
theorem Behind.cons (less : Bool) {t : Token} (ht : t.kind ≠ .compare .lt) (tail : List Token) :
    Behind less (t :: tail) :=
  fun _ => by simpa using ht

/-- No piece prolongs a sign right before it. -/
theorem Opens.scanSign {sign next : Char} {kind : TokenKind} {rest : List Char} (h : Opens rest)
    (hsign : Prolonged sign next kind) :
    Lexer.scanSign (sign :: rest) = some (kind, [sign]) := by
  refine hsign.scanSign fun c hc => ?_
  obtain ⟨hequals, hbar⟩ := h.head c hc
  cases hsign with
  | pipe => exact hbar
  | _ => exact hequals

/-- The text of an operator between two pieces. -/
def Separates (cs : List Char) (kind : TokenKind) : Prop :=
  ∀ position rest, Opens rest →
    ∃ t : Token, t.kind = kind ∧ Reads position false cs [t] false rest

namespace Separates

/-- A sign separates pieces, if no piece prolongs it. -/
theorem of_scanSign (c : Char) (cs : List Char) {kind : TokenKind}
    (h : ∀ rest, Opens rest → Lexer.scanSign (c :: cs ++ rest) = some (kind, c :: cs))
    (hmarker : kind.isTagMarker = false) : Separates (c :: cs) kind := by
  intro position rest hrest
  have hread := Reads.sign position false (h rest hrest)
  rw [hmarker] at hread
  exact ⟨_, rfl, hread⟩

/-- The symbol of arithmetic is one token between operands. -/
theorem arith (op : ArithOp) : Separates op.symbol.toList (.arith op) := by
  cases op with
  | add => exact of_scanSign '+' [] (fun _ _ => rfl) rfl
  | sub => exact of_scanSign '-' [] (fun _ _ => rfl) rfl
  | mul => exact of_scanSign '*' [] (fun _ _ => rfl) rfl
  | div => exact of_scanSign '/' [] (fun _ _ => rfl) rfl
  | mod => exact of_scanSign '%' [] (fun _ _ => rfl) rfl

/-- The symbol of a connective is one token between operands. -/
theorem junction (c : Connective) : Separates c.symbol.toList (.junction c) := by
  cases c with
  | and => exact of_scanSign '&' ['&'] (fun _ _ => rfl) rfl
  | or => exact of_scanSign '|' ['|'] (fun _ _ => rfl) rfl

/-- The symbol of a comparison is one token between operands. -/
theorem compare (op : CompareOp) : Separates op.symbol.toList (.compare op) := by
  cases op with
  | eq => exact of_scanSign '=' [] (fun _ _ => rfl) rfl
  | ne => exact of_scanSign '!' ['='] (fun _ _ => rfl) rfl
  | lt => exact of_scanSign '<' [] (fun _ hrest => hrest.scanSign .lt) rfl
  | le => exact of_scanSign '<' ['='] (fun _ _ => rfl) rfl
  | gt => exact of_scanSign '>' [] (fun _ hrest => hrest.scanSign .gt) rfl
  | ge => exact of_scanSign '>' ['='] (fun _ _ => rfl) rfl

/-- Blanks around an operator. -/
theorem spaced {cs : List Char} {kind : TokenKind} (h : Separates cs kind) :
    Separates (' ' :: cs ++ [' ']) kind := by
  intro position rest hrest
  obtain ⟨t, ht, hread⟩ := h (position + 1) (' ' :: rest) ⟨' ', rest, rfl, by decide, by decide⟩
  exact ⟨t, ht, (Reads.blank.append hread).append Reads.blank⟩

end Separates

/-- A text that is read as a phrase and spells an expression, wherever it stands.  `equals` and
`less` say whether `=` may be right behind the text and `<` behind its tokens. -/
structure Piece (n : Nonterminal) (equals less : Bool) (cs : List Char) (e : Expr) : Prop where
  opens : Opens cs
  reads : ∀ position rest, Follows equals rest →
    ∃ ts, Reads position false cs ts false rest ∧
      ∀ tail, Behind less tail → Derives n (ts ++ tail) e tail

/-- A text that is read as a phrase and spells an expression wherever a closing bracket stands
behind it. -/
structure Enclosed (n : Nonterminal) (cs : List Char) (e : Expr) : Prop where
  opens : Opens cs
  closed : ∀ {c : Char} {kind : TokenKind}, Closing c kind → ∀ position rest,
    ∃ ts, ∃ close : Token, close.kind = kind ∧
      Reads position false (cs ++ [c]) (ts ++ [close]) false rest ∧
      ∀ tail, Derives n (ts ++ close :: tail) e (close :: tail)

namespace Piece

variable {n : Nonterminal} {equals less : Bool} {cs : List Char} {e : Expr} {kind : TokenKind}

/-- A text with anything behind it may have less behind it. -/
theorem weaken (h : Piece n true true cs e) : Piece n equals less cs e := by
  refine ⟨h.opens, fun position rest hrest => ?_⟩
  obtain ⟨ts, hread, hderives⟩ := h.reads position rest ⟨hrest.1, by simp⟩
  exact ⟨ts, hread, fun tail _ => hderives tail (by simp [Behind])⟩

/-- A piece with a sign behind it that closes something. -/
theorem closed (h : Piece n equals less cs e) (position : Nat) (c : Char) (rest : List Char)
    (hc : Follows equals (c :: rest)) (hsign : Lexer.scanSign (c :: rest) = some (kind, [c]))
    (hmarker : kind.isTagMarker = false) (hkind : kind ≠ .compare .lt) :
    ∃ ts, ∃ close : Token, close.kind = kind ∧
      Reads position false (cs ++ [c]) (ts ++ [close]) false rest ∧
      ∀ tail, Derives n (ts ++ close :: tail) e (close :: tail) := by
  obtain ⟨ts, hread, hderives⟩ := h.reads position (c :: rest) hc
  have hlast := Reads.mark (position + cs.length) false c rest hsign
  rw [hmarker] at hlast
  exact ⟨ts, _, rfl, hread.append hlast, fun tail => hderives _ (.cons less hkind tail)⟩

/-- A closing bracket may stand behind every piece. -/
theorem enclosed (h : Piece n equals less cs e) : Enclosed n cs e := by
  refine ⟨h.opens, fun {c kind} hc position rest => ?_⟩
  obtain ⟨hname, -, -, hpoint⟩ := hc.apart
  obtain ⟨hmarker, hkind⟩ := hc.kind_spec
  have hequals : c ≠ '=' := by
    rintro rfl
    exact hc.notMem_seconds (by simp)
  exact h.closed position c rest (.cons equals c rest hname hpoint hequals) (hc.scanSign rest)
    hmarker hkind

end Piece

namespace Enclosed

variable {equals equals' less less' : Bool} {cs ds : List Char} {e : Expr}

/-- A whole expression in parentheses. -/
theorem parens (h : Enclosed (.expression false) cs e) :
    Piece .primary equals less ('(' :: (cs ++ [')'])) e := by
  refine ⟨⟨'(', _, rfl, by decide, by decide⟩, fun position rest _ => ?_⟩
  obtain ⟨ts, close, hclose, hread, hderives⟩ := h.closed .paren (position + 1) rest
  have hopening := Reads.mark position false '(' (cs ++ [')'] ++ rest) rfl
  refine ⟨_, hopening.append hread, fun tail _ => ?_⟩
  simpa using Derives.parens rfl (hderives tail) hclose

/-- A binder whose body is enclosed by its brackets. -/
theorem comprehension {name : String} {source body : Expr}
    (hbody : Enclosed (.expression false) ds body) (h : IsVariable name)
    (hsource : Piece .list equals' less' cs source) :
    Piece .comprehension equals less
      ('[' :: (name.toList ++ (':' :: (cs ++ ('|' :: (ds ++ [']']))))))
      (.comprehension name source body) := by
  refine ⟨⟨'[', _, rfl, by decide, by decide⟩, fun position rest _ => ?_⟩
  obtain ⟨us, close, hclose, hreadBody, hderivesBody⟩ :=
    hbody.closed .bracket (position + 1 + name.toList.length + 1 + (cs ++ ['|']).length) rest
  obtain ⟨ts, pipe, hpipe, hreadSource, hderivesSource⟩ :=
    hsource.closed (position + 1 + name.toList.length + 1) '|' (ds ++ [']'] ++ rest)
      (.cons _ _ _ (by decide) (by decide) (by decide))
      (((hbody.opens.append _).append rest).scanSign .pipe) rfl (by simp)
  have hopening := Reads.mark position false '['
    (name.toList ++ (':' :: (cs ++ ('|' :: (ds ++ [']'])))) ++ rest) rfl
  have hname := Reads.word (position + 1) false h.identifier
    (Follows.cons false ':' (cs ++ ('|' :: (ds ++ [']'])) ++ rest) (by decide) (by decide)
      (by decide)).1
  have hcolon := Reads.mark (position + 1 + name.toList.length) false ':'
    (cs ++ ('|' :: (ds ++ [']'])) ++ rest) rfl
  have hinside := hreadSource.append hreadBody
  rw [show cs ++ ['|'] ++ (ds ++ [']']) = cs ++ ('|' :: (ds ++ [']'])) by simp] at hinside
  refine ⟨_, hopening.append (hname.append (hcolon.append hinside)), fun tail _ => ?_⟩
  simpa [h.ofWord] using
    Derives.comprehension rfl rfl rfl (hderivesSource _) hpipe (hderivesBody tail) hclose

end Enclosed

namespace Piece

variable {n n' n'' : Nonterminal} {equals equals' less less' closing : Bool}
  {cs ds sep : List Char} {e e' a b : Expr} {kind : TokenKind}

/-- Phrases of one nonterminal that are phrases of another. -/
theorem lift (h : Piece n equals less cs e)
    (hn : ∀ ts tail, Derives n ts e tail → Derives n' ts e tail) : Piece n' equals less cs e := by
  refine ⟨h.opens, fun position rest hrest => ?_⟩
  obtain ⟨ts, hread, hderives⟩ := h.reads position rest hrest
  exact ⟨ts, hread, fun tail htail => hn _ _ (hderives tail htail)⟩

/-- An operand without signs is an operand. -/
theorem unary (h : Piece .primary equals less cs e) : Piece .unary equals less cs e :=
  h.lift fun _ _ h => .primary h

/-- An operand is a piece of every level. -/
theorem binary (h : Piece .unary equals less cs e) (closing : Bool) (l : Level) :
    Piece (.binary closing l) equals less cs e :=
  h.lift fun _ _ h => h.binary_of_unary closing l

/-- An operand is a piece of the operands of every level. -/
theorem binaryOperand (h : Piece .unary equals less cs e) (closing : Bool) (l : Level) :
    Piece (l.operand closing) equals less cs e :=
  h.lift fun _ _ h => h.operand_of_unary closing l

/-- An operand is a piece of the operands of a connective. -/
theorem junctionOperand (h : Piece .unary equals less cs e) (closing : Bool) (c : Connective) :
    Piece (c.operand closing) equals less cs e :=
  h.lift fun _ _ h => (h.binary_of_unary closing .equality).junctionOperand_of_equality c

/-- An operand is a whole expression. -/
theorem expression (h : Piece .unary equals less cs e) (closing : Bool) :
    Piece (.expression closing) equals less cs e :=
  h.lift fun _ _ h => h.expression_of_unary closing

/-- A sign before a piece. -/
theorem sign {c : Char} (h : Piece n equals less cs e) (hc : c ≠ '=' ∧ c ≠ '|')
    (hsign : ∀ rest, Opens rest → Lexer.scanSign (c :: rest) = some (kind, [c]))
    (hmarker : kind.isTagMarker = false)
    (hmake : ∀ (t : Token) ts tail, t.kind = kind → Derives n ts e tail →
      Derives n' (t :: ts) e' tail) :
    Piece n' equals less (c :: cs) e' := by
  refine ⟨⟨c, cs, rfl, hc⟩, fun position rest hrest => ?_⟩
  obtain ⟨ts, hread, hderives⟩ := h.reads (position + 1) rest hrest
  have hfirst := Reads.mark position false c (cs ++ rest) (hsign _ (h.opens.append rest))
  rw [hmarker] at hfirst
  exact ⟨_, hfirst.append hread, fun tail htail => hmake _ _ _ rfl (hderives tail htail)⟩

/-- Two pieces with an operator between them. -/
theorem join (ha : Piece n equals' less' cs a) (hsep : Separates sep kind)
    (hb : Piece n' equals less ds b) (hfollows : ∀ rest, Follows equals' (sep ++ rest))
    (hbehind : ∀ (t : Token) tail, t.kind = kind → Behind less' (t :: tail))
    (hmake : ∀ (t : Token) ts mid tail, t.kind = kind → Derives n ts a (t :: mid) →
      Derives n' mid b tail → Derives n'' ts e tail) :
    Piece n'' equals less (cs ++ (sep ++ ds)) e := by
  refine ⟨ha.opens.append _, fun position rest hrest => ?_⟩
  obtain ⟨us, hreadb, hderivesb⟩ := hb.reads (position + cs.length + sep.length) rest hrest
  obtain ⟨t, ht, hreadsep⟩ := hsep (position + cs.length) (ds ++ rest) (hb.opens.append rest)
  obtain ⟨ts, hreada, hderivesa⟩ := ha.reads position (sep ++ ds ++ rest)
    (by rw [List.append_assoc]; exact hfollows _)
  refine ⟨_, hreada.append (hreadsep.append hreadb), fun tail htail => ?_⟩
  rw [List.append_assoc]
  exact hmake t _ _ _ ht (hderivesa _ (hbehind t _ ht)) (hderivesb tail htail)

/-- A whole expression in parentheses. -/
theorem parens (h : Piece (.expression false) equals' less' cs e) :
    Piece .primary equals less ('(' :: (cs ++ [')'])) e :=
  h.enclosed.parens

/-- A negation in front of an operand makes an operand. -/
theorem not (h : Piece .unary equals less cs e) : Piece .unary equals less ('!' :: cs) (.not e) :=
  h.sign (by decide) (fun _ hrest => hrest.scanSign .not) rfl fun _ _ _ => .not

/-- A sign in front of an operand makes an operand. -/
theorem neg (h : Piece .unary equals less cs e) : Piece .unary equals less ('-' :: cs) (.neg e) :=
  h.sign (by decide) (fun _ _ => rfl) rfl fun _ _ _ => .neg

/-- Two operands with a binary operator between them. -/
theorem joined {l : Level} {make : Expr → Expr → Expr} (ha : Piece .unary equals' less' cs a)
    (hsep : Separates sep kind) (hb : Piece .unary equals less ds b)
    (hfollows : ∀ rest, Follows equals' (sep ++ rest))
    (hbehind : ∀ (t : Token) tail, t.kind = kind → Behind less' (t :: tail))
    (hop : l.operator? false kind = some make) :
    Piece (.expression false) equals less (cs ++ (sep ++ ds)) (make a b) := by
  have hjoined : Piece (.binary false l) equals less (cs ++ (sep ++ ds)) (make a b) :=
    (ha.binary false l).join hsep (hb.binaryOperand false l) hfollows hbehind
      fun t _ _ _ ht ha hb => .joined ha (by rwa [ht]) hb
  exact hjoined.lift fun _ _ h => h.expression_of_binary

/-- Two operands with a binary operator between them, in parentheses. -/
theorem operation {l : Level} {make : Expr → Expr → Expr} {equals'' less'' : Bool}
    (ha : Piece .unary equals' less' cs a) (hsep : Separates sep kind)
    (hb : Piece .unary equals'' less'' ds b) (hfollows : ∀ rest, Follows equals' (sep ++ rest))
    (hbehind : ∀ (t : Token) tail, t.kind = kind → Behind less' (t :: tail))
    (hop : l.operator? false kind = some make) :
    Piece .primary equals less ('(' :: (cs ++ (sep ++ ds) ++ [')'])) (make a b) :=
  (ha.joined hsep hb hfollows hbehind hop).parens

/-- Two operands of a connective. -/
theorem pair {c : Connective} (closing : Bool) (ha : Piece (c.operand closing) equals' less' cs a)
    (hsep : Separates sep (.junction c)) (hb : Piece (c.operand closing) equals less ds b)
    (hfollows : ∀ rest, Follows equals' (sep ++ rest)) :
    Piece (.group closing c) equals less (cs ++ (sep ++ ds)) (.junction c [a, b]) :=
  ha.join hsep hb hfollows (fun t tail ht => .cons less' (by simp [ht]) tail)
    fun _ _ _ _ ht ha hb => .pair ha ht hb

/-- Operands of a connective, two at least. -/
theorem group {c : Connective} {texts : List (List Char)} {es : List Expr}
    (h : List.Forall₂ (Piece (c.operand closing) equals less) texts es) (hlen : 2 ≤ es.length)
    (hsep : Separates sep (.junction c)) (hfollows : ∀ rest, Follows equals (sep ++ rest)) :
    Piece (.group closing c) equals less (sep.intercalate texts) (.junction c es) := by
  induction h with
  | nil => simp at hlen
  | @cons cs a texts es ha hes ih =>
      cases hes with
      | nil => simp at hlen
      | @cons ds b texts es hb hes =>
          rw [List.intercalate_cons_cons, List.append_assoc]
          cases hes with
          | nil =>
              rw [List.intercalate_singleton]
              exact .pair closing ha hsep hb hfollows
          | cons hb' hes =>
              exact ha.join hsep (ih (by simp)) hfollows
                (fun t tail ht => .cons less (by simp [ht]) tail)
                fun _ _ _ _ ht ha hes => .more ha ht hes

/-- A word that is a phrase by itself. -/
theorem word {word : String} (h : IsIdentifier word)
    (hmake : ∀ (t : Token) tail, t.kind = .ofWord word → t.text = word → Behind less tail →
      Derives n (t :: tail) e tail) :
    Piece n equals less word.toList e :=
  ⟨h.opens, fun _ _ hrest =>
    ⟨_, Reads.word _ _ h hrest.1, fun tail htail => hmake _ tail rfl rfl htail⟩⟩

/-- The word for a truth value is an operand. -/
theorem bool (value : Bool) :
    Piece .primary equals less (TokenKind.bool value).label.toList (.bool value) := by
  have hword : IsIdentifier (TokenKind.bool value).label := by
    cases value <;> exact Lexer.isIdentifier_of_scanName (by decide) (by decide)
  have hkind : TokenKind.ofWord (TokenKind.bool value).label = .bool value := by
    cases value <;> decide
  exact word hword fun t tail ht _ _ => .bool (by rw [ht, hkind])

/-- The text of bits is an operand. -/
theorem number {bits : Nat} (h : SpellsBits cs bits) :
    Piece .primary equals less cs (.number (Double.ofMagnitude false bits)) := by
  have hread := h.readDouble?
  obtain ⟨d, width, hnumeral, -⟩ := h
  refine ⟨?_, fun position rest hrest => ⟨_, Reads.numeral hnumeral hrest.1, fun tail _ => ?_⟩⟩
  · obtain ⟨c, ds, rfl, hc⟩ := Reads.numeral_head hnumeral
    refine ⟨c, ds, rfl, ?_, ?_⟩ <;> rintro rfl <;> exact absurd hc (by decide)
  · have hvalue : Parser.numberValue ⟨.number, String.ofList cs, position⟩ =
        Double.ofMagnitude false bits := by
      rw [Parser.numberValue, String.toList_ofList, hread]
      rfl
    rw [← hvalue]
    exact .number rfl

/-- A number, which is the opposite of its magnitude if it is below zero. -/
theorem signedNumber {text : String} {x : Float} (h : SpellsNumber text x) :
    Piece .primary equals less text.toList
      (if x < 0 then .neg (.number (Double.ofMagnitude false (Double.magnitude x)))
        else .number (Double.ofMagnitude false (Double.magnitude x))) := by
  obtain ⟨cs, hspells, htext⟩ := h
  have hmagnitude : Piece .primary true true cs _ := .number hspells
  rw [htext]
  split
  · exact .parens (hmagnitude.unary.neg.expression false)
  · exact hmagnitude.weaken

/-- A name behind a tag marker. -/
theorem tagged {c : Char} {name : String} (h : IsIdentifier name)
    (hsign : ∀ rest, Lexer.scanSign (c :: rest) = some (kind, [c]))
    (hmarker : kind.isTagMarker = true) (hc : c ≠ '=' ∧ c ≠ '|')
    (hmake : ∀ (marker t : Token) tail, marker.kind = kind → t.kind = .name → t.text = name →
      Derives n (marker :: t :: tail) e tail) :
    Piece n equals less (c :: name.toList) e := by
  refine ⟨⟨c, _, rfl, hc⟩, fun position rest hrest => ?_⟩
  have hfirst := Reads.mark position false c (name.toList ++ rest) (hsign _)
  rw [hmarker] at hfirst
  exact ⟨_, hfirst.append (Reads.word _ _ h hrest.1), fun tail _ => hmake _ _ tail rfl rfl rfl⟩

/-- A mark with an identifier is a tag. -/
theorem tag {name : String} (h : IsIdentifier name) :
    Piece .primary equals less ('#' :: name.toList) (.tag name) := by
  refine tagged h (fun _ => rfl) rfl (by decide) fun marker t tail hmarker ht htext => ?_
  rw [← htext]
  exact .tag hmarker (Or.inl ht)

/-- A mark with an identifier is the number of a tag. -/
theorem tagNumber {name : String} (h : IsIdentifier name) :
    Piece .primary equals less ('$' :: name.toList) (.tagNumber name) := by
  refine tagged h (fun _ => rfl) rfl (by decide) fun marker t tail hmarker ht htext => ?_
  rw [← htext]
  exact .tagNumber hmarker (Or.inl ht)

/-- A variable is an operand, but not in front of what would open a focused expression. -/
theorem var {name : String} (h : IsVariable name) :
    Piece .primary equals false name.toList (.var name) := by
  refine word h.identifier fun t tail ht htext htail => ?_
  rw [← htext]
  exact .var (by rw [ht, h.ofWord]) (htail rfl)

/-- A variable with an expression in angle brackets is a focused expression. -/
theorem focus {name : String} (h : IsVariable name)
    (hbody : Piece (.expression true) equals less' cs e) :
    Piece .primary false less (name.toList ++ ('<' :: (cs ++ ['>']))) (.focus name e) := by
  refine ⟨h.identifier.opens.append _, fun position rest hrest => ?_⟩
  obtain ⟨ts, close, hclose, hread, hderives⟩ :=
    hbody.closed (position + name.toList.length + 1) '>' rest
      (.cons _ _ _ (by decide) (by decide) (by decide)) (Prolonged.gt.scanSign (hrest.2 rfl)) rfl
      (by simp)
  have hopening := Reads.mark (position + name.toList.length) false '<' (cs ++ ['>'] ++ rest)
    (((hbody.opens.append _).append rest).scanSign .lt)
  have hfirst := Reads.word position false h.identifier
    (Follows.cons false '<' (cs ++ ['>'] ++ rest) (by decide) (by decide) (by decide)).1
  refine ⟨_, hfirst.append (hopening.append hread), fun tail _ => ?_⟩
  simpa [h.ofWord] using Derives.focus rfl rfl (hderives tail) hclose

/-- The word for a list is one. -/
theorem list (source : ListSource) :
    Piece .list equals less source.word.toList (.list source) := by
  have hword : IsIdentifier source.word := by
    cases source <;> exact Lexer.isIdentifier_of_scanName (by decide) (by decide)
  have hkind : TokenKind.ofWord source.word = .list source := by
    cases source <;> decide
  exact word hword fun t tail ht _ _ => .list (by rw [ht, hkind])

/-- A binder in brackets is a comprehension. -/
theorem comprehension {name : String} {source body : Expr} (h : IsVariable name)
    (hsource : Piece .list equals' less' cs source)
    {equalsBody lessBody : Bool} (hbody : Piece (.expression false) equalsBody lessBody ds body) :
    Piece .comprehension equals less
      ('[' :: (name.toList ++ (':' :: (cs ++ ('|' :: (ds ++ [']']))))))
      (.comprehension name source body) :=
  hbody.enclosed.comprehension h hsource

/-- A comprehension as a list. -/
theorem nested (h : Piece .comprehension equals less cs e) : Piece .list equals less cs e :=
  h.lift fun _ _ h => .nested h

/-- A quantifier with a binder is an operand. -/
theorem quantified {q : Quantifier} {name : String} {source body : Expr}
    (h : Piece .comprehension equals less ('[' :: cs) (.comprehension name source body)) :
    Piece .primary equals less (q.word.toList ++ '[' :: cs) (.quantified q name source body) := by
  have hword : IsIdentifier q.word := by
    cases q <;> exact Lexer.isIdentifier_of_scanName (by decide) (by decide)
  have hkind : TokenKind.ofWord q.word = .quantifier q := by
    cases q <;> decide
  refine ⟨hword.opens.append _, fun position rest hrest => ?_⟩
  obtain ⟨ts, hread, hderives⟩ := h.reads (position + q.word.toList.length) rest hrest
  have hfirst := Reads.word position false hword
    (Follows.cons false '[' (cs ++ rest) (by decide) (by decide) (by decide)).1
  exact ⟨_, hfirst.append hread, fun tail htail => .quantified hkind (hderives tail htail)⟩

/-- A comprehension behind a tag marker. -/
theorem marked {c : Char} (h : Piece .comprehension equals less ('[' :: cs) e)
    (hsign : ∀ rest, Lexer.scanSign (c :: rest) = some (kind, [c]))
    (hc : c ≠ '=' ∧ c ≠ '|')
    (hmake : ∀ (marker : Token) ts tail, marker.kind = kind → Derives .comprehension ts e tail →
      Derives n (marker :: ts) e' tail) :
    Piece n equals less (c :: '[' :: cs) e' := by
  refine ⟨⟨c, _, rfl, hc⟩, fun position rest hrest => ?_⟩
  obtain ⟨ts, hread, hderives⟩ := h.reads (position + 1) rest hrest
  have hfirst := Reads.mark position false c ('[' :: cs ++ rest) (hsign _)
  -- A bracket is no word, so that it does not matter that it is right behind a marker.
  have hread' : Reads (position + 1) kind.isTagMarker ('[' :: cs) ts false rest := by
    intro us hus
    rw [List.cons_append, Lexer.scan_marker rfl _ _ false]
    exact hread us hus
  have hreads := hfirst.append hread'
  exact ⟨_, hreads, fun tail htail => hmake _ _ tail rfl (hderives tail htail)⟩

/-- A mark with a comprehension is a count. -/
theorem count (h : Piece .comprehension equals less ('[' :: cs) e) :
    Piece .primary equals less ('$' :: '[' :: cs) (.count e) :=
  h.marked (fun _ => rfl) (by decide) fun _ _ _ => .count

/-- A mark with a comprehension asks whether there is an element. -/
theorem nonEmpty (h : Piece .comprehension equals less ('[' :: cs) e) :
    Piece .primary equals less ('#' :: '[' :: cs) (.nonEmpty e) :=
  h.marked (fun _ => rfl) (by decide) fun _ _ _ => .nonEmpty

/-- The tokens of a text that is a piece spell what the piece spells. -/
theorem spells {text : String} (h : Piece (.expression false) equals less text.toList e)
    (htyped : Typed [thisName] e (.value .boolean)) :
    ∃ ts, Lexer.tokenize text = .ok ts ∧ Spells ts e := by
  obtain ⟨ts, hread, hderives⟩ := h.reads 0 [] (.nil equals)
  have hfinish : Lexer.scan (0 + text.toList.length) false [] =
      .ok [⟨.finish, "", 0 + text.toList.length⟩] := by
    rw [Lexer.scan]
  have htokens := hread _ hfinish
  rw [List.append_nil] at htokens
  exact ⟨_, htokens, ⟨_, rfl, hderives _ (.cons less (by simp) [])⟩, htyped⟩

end Piece

/-- A piece of text that is a whole rule is read as that rule. -/
theorem Piece.readAs {equals less : Bool} {e : Expr} {text : String}
    (h : Piece .primary equals less text.toList e) (htyped : Typed [thisName] e (.value .boolean)) :
    Expr.ReadAs text e := by
  obtain ⟨ts, htokens, hspells⟩ := (h.unary.expression false).spells htyped
  exact hspells.readAs htokens

end DiagramFilter
