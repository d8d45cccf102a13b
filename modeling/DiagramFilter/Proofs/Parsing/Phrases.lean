import DiagramFilter.Proofs.Grammar.Completeness
import DiagramFilter.Proofs.Parsing.Steps

/-!
# Phrases read in place

Every method of the parser follows the reader of its phrases, from every place with a bounded number
of tokens ahead and with enough calls left (`ParserM.Reads`).  Three arguments are put together.

* A method calls others at a later place, or at the same place such as stand lower in the order of
  `Method.rank`.  So nine calls for a token are enough.
* Levels of operators read on if their operands do.  A loop is as long as its reader allows, since
  every round passes over a token.
* Operands and lists ask for whole expressions only behind a token of their own.  So the induction
  is on the number of tokens ahead, and inside of one number it goes down the levels
  (`ParserM.readsPhrases`).
-/

open DiagramFilter.Parser (peek Reader)

namespace DiagramFilter

namespace Method

variable {α : Type}

/-- How far above an operand a method stands.  At its own place it calls only lower ones. -/
def rank : {α : Type} → Method α → Nat
  | _, .junction .or => 8
  | _, .junction .and => 7
  | _, .binary .equality => 6
  | _, .binary .relation => 5
  | _, .binary .term => 4
  | _, .binary .factor => 3
  | _, .unary => 2
  | _, .primary => 1
  | _, .list => 1
  | _, _ => 0

/-- No rank of a method is above eight. -/
theorem rank_le (m : Method α) : m.rank ≤ 8 := by
  cases m with
  | junction c => cases c <;> decide
  | binary l => cases l <;> decide
  | _ => simp [rank]

/-- The operands of a connective have a lower rank. -/
theorem rank_operandOf (c : Connective) : (operandOf c).rank < (junction c).rank := by
  cases c <;> decide

/-- The operands of a level have a lower rank. -/
theorem rank_operandOn (l : Level) : (operandOn l).rank < (binary l).rank := by
  cases l <;> decide

end Method

namespace ParserM

variable {tokens : List Token} {d clock i k : Nat} {s : ParserState} {α β : Type}

/-- The calls inside of each other that are enough for a method at a place. -/
def callsFrom (tokens : List Token) (place : Nat) (m : Method α) : Nat :=
  9 * (tokens.length - place) + m.rank

/-- What is enough for a method is enough for what it calls at a later place. -/
theorem callsFrom_later {m : Method α} {m' : Method β} (h : callsFrom tokens i m ≤ clock + 1)
    (hik : i < k) (hk : k < tokens.length) : callsFrom tokens k m' ≤ clock := by
  have hrank := m'.rank_le
  rw [callsFrom] at h ⊢
  omega

/-- It is enough for what it calls at the same place. -/
theorem callsFrom_lower {m : Method α} {m' : Method β} (h : callsFrom tokens i m ≤ clock + 1)
    (hrank : m'.rank < m.rank) : callsFrom tokens i m' ≤ clock := by
  rw [callsFrom] at h ⊢
  omega

/-- A method has a call left inside the text. -/
theorem exists_succ_of_callsFrom {m : Method α} (hi : i < tokens.length)
    (h : callsFrom tokens i m ≤ clock) : ∃ n, clock = n + 1 := by
  rw [callsFrom] at h
  exact ⟨clock - 1, by omega⟩

/-- From every place with at most `d` tokens ahead, a method follows a reader. -/
def Reads (tokens : List Token) (d : Nat) (m : Method α)
    (reader : Bool → List String → Reader α) : Prop :=
  ∀ (s : ParserState) (clock : Nat), s.position < tokens.length → tokens.length ≤ s.position + d →
    callsFrom tokens s.position m ≤ clock →
      Follows tokens 1 s (perform tokens clock m)
        (reader s.closing s.bound (tokens.drop s.position))

/-- A method follows a reader if what it does with one call less follows that reader. -/
theorem Reads.of_method {m : Method α} {reader : Bool → List String → Reader α}
    (h : ∀ (s : ParserState) (clock : Nat), s.position < tokens.length →
      tokens.length ≤ s.position + d → callsFrom tokens s.position m ≤ clock + 1 →
        Follows tokens 1 s (method tokens (perform tokens clock) m)
          (reader s.closing s.bound (tokens.drop s.position))) : Reads tokens d m reader := by
  intro s clock hs hd hclock
  obtain ⟨clock, rfl⟩ := exists_succ_of_callsFrom hs hclock
  rw [perform]
  exact h s clock hs hd hclock

section Levels

variable {p : Bool → List String → Reader Expr} {l : Level} {c : Connective}

/-- The loop of a level follows its reader, if the operands do. -/
theorem binaryLoop_follows (hend : EndsInFinish tokens) (hoperand : Reads tokens d (.operandOn l) p)
    (rounds : Nat) (left : Expr) (hs : s.position < tokens.length)
    (hd : tokens.length ≤ s.position + d) (hrounds : tokens.length ≤ s.position + rounds)
    (hclock : callsFrom tokens s.position (.binaryLoop l left) ≤ clock) :
    Follows tokens 0 s (perform tokens clock (.binaryLoop l left))
      (Parser.binaryTail (l.join? s.closing) (p s.closing s.bound) rounds left
        (tokens.drop s.position)) := by
  induction rounds generalizing s left clock with
  | zero => omega
  | succ rounds ih =>
      obtain ⟨clock, rfl⟩ := exists_succ_of_callsFrom hs hclock
      rw [perform, method, binaryLoop, Parser.binaryTail]
      refine .look_zero hs (.get ?_)
      cases hjoin : l.join? s.closing (peek (tokens.drop s.position)) with
      | none => exact .pure hs left
      | some join =>
          have hkind : (peek (tokens.drop s.position)).kind ≠ .finish := by
            intro hfinish
            rw [Parser.join?_eq_none.mpr (hfinish ▸ l.operator?_finish s.closing)] at hjoin
            cases hjoin
          dsimp only
          rw [List.tail_drop]
          refine (Follows.advance hend hs hkind fun hpasses => ?_).mono (Nat.zero_le (1 + (1 + 0)))
          have hd' : tokens.length ≤ s.position + 1 + d := by omega
          refine (hoperand (s.movedTo (s.position + 1)) clock hpasses.inside hd'
            (callsFrom_later hclock (Nat.lt_succ_self _) hpasses.inside)).bind
            fun right k hk => .check fun joined _ => ?_
          have hle : s.position + 1 + 1 ≤ k := hk.le
          exact ih joined hk.inside (by show _ ≤ k + d; omega) (by show _ ≤ k + rounds; omega)
            (callsFrom_later hclock (by show _ < k; omega) hk.inside)

/-- A level of operators reads on if its operands do. -/
theorem Reads.binary (hend : EndsInFinish tokens) (hoperand : Reads tokens d (.operandOn l) p) :
    Reads tokens d (.binary l) fun closing bound =>
      Parser.binaryLevel (l.join? closing) (p closing bound) := by
  refine .of_method fun s clock hs hd hclock => ?_
  rw [method, ParserM.binary]
  dsimp only [Parser.binaryLevel]
  refine Follows.bind (n := 0)
    (hoperand s clock hs hd (callsFrom_lower hclock (Method.rank_operandOn l))) fun left k hk => ?_
  have hle := hk.le
  refine binaryLoop_follows hend hoperand _ left hk.inside (by show _ ≤ k + d; omega) ?_
    (callsFrom_later hclock (by show _ < k; omega) hk.inside)
  show _ ≤ k + (tokens.drop k).length
  rw [List.length_drop]
  omega

/-- The operands of a connective are asked for in pairs, so all of them are truth values. -/
theorem forIn_last_two (role : Role) (op : Token) (before : List Expr) (previous next : Expr)
    (f : ParserM α) :
    (do
      for e in (before ++ [previous] ++ [next]).drop
          ((before ++ [previous] ++ [next]).length - 2) do
        require role .boolean e op
      f) =
      require role .boolean previous op >>= fun _ =>
        require role .boolean next op >>= fun _ => f := by
  have hlast : (before ++ [previous] ++ [next]).drop
      ((before ++ [previous] ++ [next]).length - 2) = [previous, next] := by
    simp
  rw [hlast]
  simp

/-- A group of more than one operand is a connective, and one operand is itself. -/
theorem group_cons (c : Connective) (first : Expr) (more : List Expr) :
    group c (first :: more) = if more.isEmpty then first else .junction c (first :: more) := by
  cases more <;> rfl

/-- The loop of a connective follows its reader, if the operands do. -/
theorem junctionLoop_follows (hend : EndsInFinish tokens)
    (hoperand : Reads tokens d (.operandOf c) p) (rounds : Nat) (before : List Expr)
    (previous : Expr) (hs : s.position < tokens.length) (hd : tokens.length ≤ s.position + d)
    (hrounds : tokens.length ≤ s.position + rounds)
    (hclock : callsFrom tokens s.position (.junctionLoop c (before ++ [previous])) ≤ clock) :
    Follows tokens 0 s (perform tokens clock (.junctionLoop c (before ++ [previous])))
      (Parser.junctionTail c (p s.closing s.bound) rounds previous (tokens.drop s.position) >>=
        fun r => .ok (group c (before ++ [previous] ++ r.1), r.2)) := by
  induction rounds generalizing s before previous clock with
  | zero => omega
  | succ rounds ih =>
      obtain ⟨clock, rfl⟩ := exists_succ_of_callsFrom hs hclock
      rw [perform, method, junctionLoop, Parser.junctionTail]
      refine .look_zero hs ?_
      by_cases hjunction : (peek (tokens.drop s.position)).kind = .junction c
      · rw [if_pos hjunction, if_pos hjunction, List.tail_drop]
        have hkind : (peek (tokens.drop s.position)).kind ≠ .finish := by simp [hjunction]
        refine (Follows.advance hend hs hkind fun hpasses => ?_).mono (Nat.zero_le (1 + (1 + 0)))
        have hd' : tokens.length ≤ s.position + 1 + d := by omega
        rw [bind_assoc]
        refine (hoperand (s.movedTo (s.position + 1)) clock hpasses.inside hd'
          (callsFrom_later hclock (Nat.lt_succ_self _) hpasses.inside)).bind fun next k hk => ?_
        have hle : s.position + 1 + 1 ≤ k := hk.le
        dsimp only
        rw [forIn_last_two, bind_assoc]
        refine .check fun _ _ => ?_
        rw [bind_assoc]
        refine .check fun _ _ => ?_
        have hloop := ih (s := s.movedTo k) (before ++ [previous]) next hk.inside
          (by show _ ≤ k + d; omega) (by show _ ≤ k + rounds; omega)
          (callsFrom_later hclock (by show _ < k; omega) hk.inside)
        rw [bind_assoc]
        simp only [List.append_assoc, List.cons_append, List.nil_append] at hloop ⊢
        exact hloop
      · rw [if_neg hjunction, if_neg hjunction]
        show Follows tokens 0 s _
          (.ok (group c (before ++ [previous] ++ []), tokens.drop s.position))
        rw [List.append_nil]
        exact .pure hs _

/-- A level of a connective reads on if its operands do. -/
theorem Reads.junction (hend : EndsInFinish tokens) (hoperand : Reads tokens d (.operandOf c) p) :
    Reads tokens d (.junction c) fun closing bound =>
      Parser.junctionLevel c (p closing bound) := by
  refine .of_method fun s clock hs hd hclock => ?_
  rw [method, ParserM.junction]
  dsimp only [Parser.junctionLevel]
  refine Follows.bind (n := 0)
    (hoperand s clock hs hd (callsFrom_lower hclock (Method.rank_operandOf c))) fun first k hk => ?_
  have hle := hk.le
  have hloop := junctionLoop_follows (s := s.movedTo k) hend hoperand (tokens.drop k).length []
    first hk.inside (by show _ ≤ k + d; omega) (by show _ ≤ k + _; rw [List.length_drop]; omega)
    (callsFrom_later hclock (by show _ < k; omega) hk.inside)
  simp only [List.nil_append, List.singleton_append, group_cons] at hloop
  exact hloop

/-- The operands of every level read on if those with their signs do. -/
theorem Reads.operandOn (hend : EndsInFinish tokens) (hunary : Reads tokens d .unary p)
    (l : Level) : Reads tokens d (.operandOn l) fun closing bound =>
      Parser.operandsOf closing (p closing bound) l := by
  have hterm : Reads tokens d (.operandOn .term) fun closing bound =>
      Parser.operandsOf closing (p closing bound) .term :=
    binary (l := .factor) hend hunary
  have hrelation : Reads tokens d (.operandOn .relation) fun closing bound =>
      Parser.operandsOf closing (p closing bound) .relation :=
    binary (l := .term) hend hterm
  cases l with
  | factor => exact hunary
  | term => exact hterm
  | relation => exact hrelation
  | equality => exact binary (l := .relation) hend hrelation

/-- So do the operands of the connectives. -/
theorem Reads.operandOf (hend : EndsInFinish tokens) (hunary : Reads tokens d .unary p)
    (c : Connective) : Reads tokens d (.operandOf c) fun closing bound =>
      Parser.junctionOperandsOf closing (p closing bound) c := by
  have hand : Reads tokens d (.operandOf .and) fun closing bound =>
      Parser.junctionOperandsOf closing (p closing bound) .and :=
    binary (l := .equality) hend (hunary.operandOn hend .equality)
  cases c with
  | and => exact hand
  | or => exact junction (c := .and) hend hand

/-- And so do whole expressions. -/
theorem Reads.expression (hend : EndsInFinish tokens) (hunary : Reads tokens d .unary p) :
    Reads tokens d (.junction .or) fun closing bound => Parser.levels closing (p closing bound) :=
  junction (c := .or) hend (hunary.operandOf hend .or)

end Levels

/-- A binder between its brackets. -/
def between (source : Reader Expr) (body : String → Reader Expr) :
    Reader (String × Expr × Expr) := fun ts => do
  let var := peek ts
  if var.kind.isKeyword then
    Parser.formError (.keywordAsVariable var.text) var
  else
    let rest ← Parser.expect .name .variableName ts
    let rest ← Parser.expect .colon (.token .colon) rest
    let (list, rest) ← source rest
    let pipe := peek rest
    let rest ← Parser.expect .pipe (.token .pipe) rest
    let (e, rest) ← body var.text rest
    Parser.require (.body var.text) .boolean e pipe
    return ((var.text, list, e), rest)

/-- A binder stands between brackets. -/
theorem binding_eq_between (source : Reader Expr) (body : String → Reader Expr) (ts : List Token) :
    Parser.binding source body ts =
      Parser.expect .leftBracket (.token .leftBracket) ts >>= fun rest =>
        between source body rest >>= fun r =>
          Parser.expect .rightBracket (.token .rightBracket) r.2 >>= fun rest =>
            .ok (r.1, rest) := by
  rw [Parser.binding]
  congr 1
  funext rest
  rw [between]
  dsimp only
  by_cases hword : (peek rest).kind.isKeyword = true
  · rw [if_pos hword, if_pos hword]
    rfl
  · rw [if_neg hword, if_neg hword]
    simp only [bind_assoc, pure_bind]
    rfl

/-- A binder does not leave the name behind that its body is read with. -/
theorem Reads.binding {source : List String → Reader Expr} {p : Bool → List String → Reader Expr}
    (hend : EndsInFinish tokens) (hlist : Reads tokens d .list fun _ bound => source bound)
    (hexpression : Reads tokens d (.junction .or) p) :
    Reads tokens d .binding fun _ bound =>
      between (source bound) fun var => p false (var :: bound) := by
  refine .of_method fun s clock hs hd hclock => ?_
  rw [method, ParserM.binding]
  refine .look_zero hs ?_
  dsimp only [between]
  by_cases hword : (peek (tokens.drop s.position)).kind.isKeyword = true
  · rw [if_pos hword, if_pos hword]
    exact ⟨s, rfl⟩
  rw [if_neg hword, if_neg hword]
  refine (Follows.expect hend hs (by decide) fun hname => ?_).mono
    (show 1 ≤ 1 + (1 + (1 + (1 + (1 + 0)))) by decide)
  refine .expect hend hname.inside (by decide) fun hcolon => ?_
  refine Follows.bind (hlist _ clock hcolon.inside ?_
    (callsFrom_later hclock ?_ hcolon.inside)) fun list k hk => ?_
  · show tokens.length ≤ s.position + 1 + 1 + d
    omega
  · show s.position < s.position + 1 + 1
    omega
  have hle : s.position + 1 + 1 + 1 ≤ k := hk.le
  refine .expect hend hk.inside (by decide) fun hpipe => .get ?_
  have hbody := hexpression
    { s with position := k + 1
             bound := (peek (tokens.drop s.position)).text :: s.bound
             closing := false } clock hpipe.inside (by show _ ≤ k + 1 + d; omega)
    (callsFrom_later hclock (by show _ < k + 1; omega) hpipe.inside)
  dsimp only
  rw [← bind_assoc]
  refine Follows.bind (hbody.guard (s := s.movedTo (k + 1)) rfl fun _ => rfl) fun e l hl => ?_
  exact .check fun _ _ => .pure hl.inside _

/-- What a focused expression focuses on, behind its name and the `<`. -/
def focused (bound : List String) (name : Token) (body : Reader Expr) : Reader Expr := fun ts => do
  Parser.requireBound bound name.text
  let (e, rest) ← body ts
  if e.kind? = some .element then
    .error (.kind (.focusedElement name.text) name.position)
  else
    let rest ← Parser.expect (.compare .gt) (.closing name.text) rest
    return (.focus name.text e, rest)

/-- Operands and lists read on from every place with at most `d` tokens ahead. -/
structure ReadsPhrases (tokens : List Token) (d : Nat) : Prop where
  unary : Reads tokens d .unary fun _ bound => Parser.operand d bound
  list : Reads tokens d .list fun _ bound => Parser.source d bound

namespace ReadsPhrases

variable {m : Method Expr} (hphrases : ReadsPhrases tokens d) (hend : EndsInFinish tokens)

include hphrases hend

/-- The method for expressions reads expressions. -/
theorem expression : Reads tokens d (.junction .or) fun closing bound =>
    Parser.levels closing (Parser.operand d bound) :=
  hphrases.unary.expression hend

/-- The method for binders reads what stands between the brackets. -/
theorem binding : Reads tokens d .binding fun _ bound =>
    between (Parser.source d bound) fun var =>
      Parser.levels false (Parser.operand d (var :: bound)) :=
  hphrases.list.binding hend (hphrases.expression hend)

/-- A binder in brackets, and what is made of it. -/
theorem bracketed (make : String × Expr × Expr → Expr) (hs : s.position < tokens.length)
    (hd : tokens.length ≤ s.position + (d + 1))
    (hclock : callsFrom tokens s.position m ≤ clock + 1) :
    Follows tokens 1 s (bracketed tokens (perform tokens clock) make)
      (Parser.binding (Parser.source d s.bound)
        (fun var => Parser.levels false (Parser.operand d (var :: s.bound)))
          (tokens.drop s.position) >>= fun r => .ok (make r.1, r.2)) := by
  rw [ParserM.bracketed, binding_eq_between]
  simp only [bind_assoc]
  refine (Follows.expect hend hs (by decide) fun hopening => ?_).mono
    (show 1 ≤ 1 + (1 + (1 + 0)) by decide)
  have hnext : tokens.length ≤ s.position + 1 + d := by omega
  refine Follows.bind (hphrases.binding hend _ clock hopening.inside hnext
    (callsFrom_later hclock (Nat.lt_succ_self _) hopening.inside)) fun r k hk => ?_
  exact .expect hend hk.inside (by decide) fun hclosing => .pure hclosing.inside _

/-- The method for comprehensions reads one. -/
theorem comprehension : Reads tokens (d + 1) .comprehension fun _ bound ts =>
    Parser.binding (Parser.source d bound)
      (fun var => Parser.levels false (Parser.operand d (var :: bound))) ts >>= fun r =>
        .ok (.comprehension r.1.1 r.1.2.1 r.1.2.2, r.2) := by
  refine .of_method fun s clock hs hd hclock => ?_
  rw [method]
  exact hphrases.bracketed hend (fun r => .comprehension r.1 r.2.1 r.2.2) hs hd hclock

omit hphrases in
/-- The word behind a tag marker. -/
theorem tagName (marker : Token) : Reads tokens d (.tagName marker) fun _ _ =>
    Parser.tagName marker := by
  refine .of_method fun s clock hs hd hclock => ?_
  rw [method]
  exact .tagName hend hs marker

/-- A comprehension, or the tag name behind a marker. -/
theorem marked (make : Expr → Expr) (makeTag : String → Expr) (marker : Token)
    (hs : s.position < tokens.length) (hd : tokens.length ≤ s.position + (d + 1))
    (hkind : (peek (tokens.drop s.position)).kind ≠ .finish)
    (hclock : callsFrom tokens s.position m ≤ clock + 1) :
    Follows tokens 1 s (marked tokens (perform tokens clock) marker make makeTag)
      (if (peek (tokens.drop (s.position + 1))).kind = .leftBracket then
        Parser.binding (Parser.source d s.bound)
          (fun var => Parser.levels false (Parser.operand d (var :: s.bound)))
            (tokens.drop (s.position + 1)) >>= fun r =>
              .ok (make (.comprehension r.1.1 r.1.2.1 r.1.2.2), r.2)
      else Parser.tagName marker (tokens.drop (s.position + 1)) >>= fun r =>
        .ok (makeTag r.1, r.2)) := by
  rw [ParserM.marked]
  refine (Follows.advance hend hs hkind fun hpasses => ?_).mono (show 1 ≤ 1 + (1 + 0) by decide)
  have hnext : tokens.length ≤ s.position + 1 + (d + 1) := by omega
  refine .look_zero hpasses.inside ?_
  rw [ParserState.movedTo_position]
  by_cases hbracket : (peek (tokens.drop (s.position + 1))).kind = .leftBracket
  · rw [if_pos hbracket, if_pos hbracket]
    have h := (hphrases.comprehension hend (s.movedTo (s.position + 1)) clock hpasses.inside hnext
      (callsFrom_later hclock (Nat.lt_succ_self _) hpasses.inside)).bind (n := 0) (f := fun e =>
        (pure (make e) : ParserM Expr)) (g := fun r => .ok (make r.1, r.2)) fun e k hk =>
          .pure hk.inside _
    rwa [bind_assoc] at h
  · rw [if_neg hbracket, if_neg hbracket]
    exact Follows.bind (n := 0) (tagName (d := d + 1) hend marker (s.movedTo (s.position + 1)) clock
      hpasses.inside hnext (callsFrom_later hclock (Nat.lt_succ_self _) hpasses.inside))
      fun name k hk => .pure hk.inside _

/-- The method for lists reads lists. -/
theorem list_succ : Reads tokens (d + 1) .list fun _ bound => Parser.source (d + 1) bound := by
  refine .of_method fun s clock hs hd hclock => ?_
  rw [method, ParserM.list]
  refine .look_zero hs ?_
  rw [Parser.source, List.tail_drop]
  cases hkind : (peek (tokens.drop s.position)).kind with
  | list word =>
      refine Follows.advance (n := 0) hend hs (by simp [hkind]) fun hpasses => ?_
      exact .pure hpasses.inside _
  | leftBracket =>
      exact hphrases.comprehension hend s clock hs hd (callsFrom_lower hclock (by decide))
  | _ => exact ⟨s, rfl⟩

/-- A focused expression, behind the two tokens that it begins with. -/
theorem focus_follows {name opening : Token}
    (hname : (advance tokens).runFrom s = (.ok name, s.movedTo i))
    (hfirst : Passes tokens 0 s.position i)
    (hopening : (advance tokens).runFrom (s.movedTo i) = (.ok opening, s.movedTo k))
    (hsecond : Passes tokens 0 i k) (hd : tokens.length ≤ k + d)
    (hclock : callsFrom tokens k (.junction .or) ≤ clock) :
    Follows tokens 1 s (perform tokens (clock + 1) .focus)
      (focused s.bound name (Parser.levels true (Parser.operand d s.bound)) (tokens.drop k)) := by
  rw [perform, method, ParserM.focus, focused]
  refine (Follows.after hname hfirst ?_).mono (show 1 ≤ 0 + (0 + (1 + (1 + 0))) by decide)
  rw [checkBound]
  simp only [bind_assoc]
  refine .get (.check fun _ _ => .after hopening hsecond (.get ?_))
  refine .shielded rfl (fun k => rfl) (hphrases.expression hend _ clock hsecond.inside hd hclock)
    fun e l hl => ?_
  dsimp only
  by_cases helement : e.kind? = some .element
  · rw [if_pos helement, if_pos helement]
    exact ⟨_, rfl⟩
  · rw [if_neg helement, if_neg helement]
    exact .expect hend hl.inside (by decide) fun hclosing => .pure hclosing.inside _

/-- A focused expression. -/
theorem focus (hs : s.position < tokens.length) (hd : tokens.length ≤ s.position + (d + 1))
    (hname : (peek (tokens.drop s.position)).kind = .name)
    (hopening : (peek (tokens.drop (s.position + 1))).kind = .compare .lt)
    (hclock : callsFrom tokens s.position .focus ≤ clock) :
    Follows tokens 1 s (perform tokens clock .focus)
      (focused s.bound (peek (tokens.drop s.position))
        (Parser.levels true (Parser.operand d s.bound)) (tokens.drop (s.position + 1 + 1))) := by
  obtain ⟨clock, rfl⟩ := exists_succ_of_callsFrom hs hclock
  have hname' : (peek (tokens.drop s.position)).kind ≠ .finish := by simp [hname]
  have hopening' : (peek (tokens.drop (s.position + 1))).kind ≠ .finish := by simp [hopening]
  have hfirst := Passes.one hend hs hname'
  have hsecond := Passes.one hend hfirst.inside hopening'
  exact hphrases.focus_follows hend (runFrom_advance hs hname') (hfirst.mono (Nat.zero_le 1))
    (runFrom_advance (s := s.movedTo (s.position + 1)) hfirst.inside hopening')
    (hsecond.mono (Nat.zero_le 1)) (by omega)
    (callsFrom_later hclock (by omega) hsecond.inside)

/-- An expression in parentheses. -/
theorem parens (opening : Token) (hs : s.position < tokens.length)
    (hd : tokens.length ≤ s.position + (d + 1))
    (hkind : (peek (tokens.drop s.position)).kind ≠ .finish)
    (hclock : callsFrom tokens s.position m ≤ clock + 1) :
    Follows tokens 1 s (parens tokens (perform tokens clock) opening)
      (Parser.levels false (Parser.operand d s.bound) (tokens.drop (s.position + 1)) >>= fun r =>
        if (peek r.2).kind = .rightParen then .ok (r.1, r.2.tail)
        else Parser.formError .mismatchedParentheses opening) := by
  rw [ParserM.parens]
  refine (Follows.advance hend hs hkind fun hpasses => .get ?_).mono
    (show 1 ≤ 1 + (1 + 0) by decide)
  have hnext : tokens.length ≤ s.position + 1 + d := by omega
  refine .shielded rfl (fun k => rfl) (hphrases.expression hend _ clock hpasses.inside hnext
    (callsFrom_later hclock (Nat.lt_succ_self _) hpasses.inside)) fun e k hk => ?_
  refine .look_zero hk.inside ?_
  dsimp only [ParserState.movedTo_position]
  by_cases hclosing : (peek (tokens.drop k)).kind = .rightParen
  · rw [if_pos hclosing, if_pos hclosing, List.tail_drop]
    refine (Follows.advance (n := 0) hend hk.inside ?_ fun hpasses => .pure hpasses.inside e).mono
      (Nat.zero_le 1)
    show (peek (tokens.drop k)).kind ≠ .finish
    simp [hclosing]
  · rw [if_neg hclosing, if_neg hclosing]
    exact ⟨_, rfl⟩

/-- An operand without signs. -/
theorem primary (hs : s.position < tokens.length) (hd : tokens.length ≤ s.position + (d + 1))
    (hnot : (peek (tokens.drop s.position)).kind ≠ .not)
    (hminus : (peek (tokens.drop s.position)).kind ≠ .arith .sub)
    (hclock : callsFrom tokens s.position .primary ≤ clock) :
    Follows tokens 1 s (perform tokens clock .primary)
      (Parser.operand (d + 1) s.bound (tokens.drop s.position)) := by
  obtain ⟨clock, rfl⟩ := exists_succ_of_callsFrom hs hclock
  rw [perform, method, ParserM.primary]
  refine .look_zero hs ?_
  rw [Parser.operand]
  dsimp only
  rw [List.tail_drop]
  cases hkind : (peek (tokens.drop s.position)).kind with
  | not => exact absurd hkind hnot
  | number | bool value =>
      refine Follows.advance (n := 0) hend hs (by simp [hkind]) fun hpasses => ?_
      exact .pure hpasses.inside _
  | hash => exact hphrases.marked hend .nonEmpty .tag _ hs hd (by simp [hkind]) hclock
  | dollar => exact hphrases.marked hend .count .tagNumber _ hs hd (by simp [hkind]) hclock
  | quantifier q =>
      refine (Follows.advance hend hs (by simp [hkind]) fun hpasses => ?_).mono
        (show 1 ≤ 1 + 1 by decide)
      have hnext : callsFrom tokens (s.position + 1) .comprehension ≤ clock :=
        callsFrom_later hclock (Nat.lt_succ_self _) hpasses.inside
      exact hphrases.bracketed hend (fun r => .quantified q r.1 r.2.1 r.2.2)
        (s := s.movedTo (s.position + 1)) hpasses.inside
        (by show _ ≤ s.position + 1 + (d + 1); omega) (Nat.le_succ_of_le hnext)
  | name =>
      refine .look_one hend hs (by simp [hkind]) ?_
      dsimp only
      by_cases hopening : (peek (tokens.drop (s.position + 1))).kind = .compare .lt
      · rw [if_pos hopening, if_pos hopening, List.tail_drop]
        exact hphrases.focus hend hs hd hkind hopening (callsFrom_lower hclock (by decide))
      · rw [if_neg hopening, if_neg hopening]
        refine Follows.advance (n := 0) hend hs (by simp [hkind]) fun hpasses => ?_
        rw [checkBound]
        simp only [bind_assoc]
        exact .get (.check fun _ _ => .pure hpasses.inside _)
  | leftParen => exact hphrases.parens hend _ hs hd (by simp [hkind]) hclock
  | arith op =>
      cases op with
      | sub => exact absurd hkind hminus
      | _ => exact ⟨s, rfl⟩
  | _ => exact ⟨s, rfl⟩

/-- An operand behind a sign. -/
theorem signed (role : Role) (wanted : Kind) (make : Expr → Expr)
    (hs : s.position < tokens.length) (hd : tokens.length ≤ s.position + (d + 1))
    (hkind : (peek (tokens.drop s.position)).kind ≠ .finish)
    (hclock : callsFrom tokens s.position m ≤ clock + 1) :
    Follows tokens 1 s
      (advance tokens >>= fun sign => perform tokens clock .unary >>= fun e =>
        require role wanted e sign >>= fun _ => pure (make e))
      (Parser.operand d s.bound (tokens.drop (s.position + 1)) >>= fun r =>
        Parser.require role wanted r.1 (peek (tokens.drop s.position)) >>= fun _ =>
          .ok (make r.1, r.2)) := by
  refine (Follows.advance hend hs hkind fun hpasses => ?_).mono (show 1 ≤ 1 + (1 + 0) by decide)
  have hnext : tokens.length ≤ s.position + 1 + d := by omega
  exact Follows.bind (hphrases.unary (s.movedTo (s.position + 1)) clock hpasses.inside hnext
    (callsFrom_later hclock (Nat.lt_succ_self _) hpasses.inside)) fun e k hk =>
      .check fun _ _ => .pure hk.inside _

/-- An operand with the signs before it. -/
theorem unary_succ : Reads tokens (d + 1) .unary fun _ bound => Parser.operand (d + 1) bound := by
  refine .of_method fun s clock hs hd hclock => ?_
  rw [method, ParserM.unary]
  refine .look_zero hs ?_
  split
  · rename_i hkind
    rw [Parser.operand]
    dsimp only
    rw [hkind, List.tail_drop]
    exact hphrases.signed hend (.operand "!") .boolean .not hs hd (by simp [hkind]) hclock
  · rename_i hkind
    rw [Parser.operand]
    dsimp only
    rw [hkind, List.tail_drop]
    exact hphrases.signed hend .unaryMinus .numeric .neg hs hd (by simp [hkind]) hclock
  · rename_i hnot hminus
    exact hphrases.primary hend hs hd hnot hminus (callsFrom_lower hclock (by decide))

end ReadsPhrases

/-- **Operands and lists follow the reader that may go as deep as there are tokens ahead.** -/
theorem readsPhrases (hend : EndsInFinish tokens) (d : Nat) : ReadsPhrases tokens d := by
  induction d with
  | zero => exact ⟨fun s _ hs hd => by omega, fun s _ hs hd => by omega⟩
  | succ d ih => exact ⟨ih.unary_succ hend, ih.list_succ hend⟩

end ParserM

end DiagramFilter
