import DocumentQa.Ingestion.TableExtractor

/-!
# Columns of financial tables

A data row as a table prints it is one group of cells for each year: a number, with its
currency sign, closing parenthesis and percent sign in the same cell or in cells of their
own, or a placeholder. The extractor reads the groups one by one, and what it files under
the years is compared with the columns.
-/

namespace Ingestion

open Python Evidence Regex

/-! ## Values -/

theorem amount_chars {a : Cell} (h : amountPattern.fullmatch a = true) :
    (∀ c ∈ a, c = '(' ∨ c = '-' ∨ c = ',' ∨ c = '.' ∨ isDecimal c = true) ∧ ∃ c ∈ a, isDecimal c = true := by
  rw [fullmatch_iff rfl] at h
  simp only [amountPattern, cat, chr, digit, plus, spells_seq, spells_opt, spells_unit, spells_many_unit, beq_iff_eq,
    Bool.or_eq_true] at h
  obtain ⟨o, x, opened, ⟨m, y, minus, ⟨d, z, ⟨c, isDigit, rfl⟩, ⟨ds, f, digits, fraction, rfl⟩, rfl⟩, rfl⟩, rfl⟩ := h
  constructor
  · intro e mem
    simp only [List.mem_append, List.mem_singleton] at mem
    rcases mem with mem | mem | rfl | mem | mem
    · rcases opened with ⟨_, rfl, rfl⟩ | rfl
      · exact .inl (List.mem_singleton.1 mem)
      · cases mem
    · rcases minus with ⟨_, rfl, rfl⟩ | rfl
      · exact .inr (.inl (List.mem_singleton.1 mem))
      · cases mem
    · tauto
    · have := digits e mem
      tauto
    · rcases fraction with ⟨p, q, ⟨_, rfl, rfl⟩, ⟨r, s, ⟨k, isDigit', rfl⟩, more, rfl⟩, rfl⟩ | rfl
      · simp only [List.mem_append, List.mem_singleton] at mem
        rcases mem with rfl | rfl | mem
        · tauto
        · tauto
        · have := more e mem
          tauto
      · cases mem
  · exact ⟨c, by simp, isDigit⟩

theorem value_iff {u : Cell} :
    isValueToken u = true ↔ ∃ a, amountPattern.fullmatch a = true ∧ (u = a ∨ u = a ++ [')']) := by
  rw [isValueToken, fullmatch_iff rfl, valuePattern]
  simp only [spells_seq, spells_opt, chr, spells_unit, beq_iff_eq]
  constructor
  · rintro ⟨a, c, amount, ⟨_, rfl, rfl⟩ | rfl, rfl⟩
    · exact ⟨a, (fullmatch_iff rfl).2 amount, .inr rfl⟩
    · exact ⟨a, (fullmatch_iff rfl).2 amount, .inl (List.append_nil a)⟩
  · rintro ⟨a, amount, rfl | rfl⟩
    · exact ⟨u, [], (fullmatch_iff rfl).1 amount, .inr rfl, (List.append_nil u).symm⟩
    · exact ⟨a, [')'], (fullmatch_iff rfl).1 amount, .inl ⟨_, rfl, rfl⟩, rfl⟩

theorem percent_iff {u : Cell} :
    percentValuePattern.fullmatch u = true ↔ ∃ v, isValueToken v = true ∧ u = v ++ ['%'] := by
  rw [fullmatch_iff rfl, percentValuePattern]
  simp only [spells_seq, chr, spells_unit, beq_iff_eq]
  constructor
  · rintro ⟨v, _, value, ⟨_, rfl, rfl⟩, rfl⟩
    exact ⟨v, (fullmatch_iff rfl).2 value, rfl⟩
  · rintro ⟨v, value, rfl⟩
    exact ⟨v, ['%'], (fullmatch_iff rfl).1 value, ⟨_, rfl, rfl⟩, rfl⟩

theorem amount_value {a : Cell} (h : amountPattern.fullmatch a = true) : isValueToken a = true :=
  value_iff.2 ⟨a, h, .inl rfl⟩

theorem amount_closed_value {a : Cell} (h : amountPattern.fullmatch a = true) : isValueToken (a ++ [')']) = true :=
  value_iff.2 ⟨a, h, .inr rfl⟩

/-- No value has a sign in it. -/
theorem value_chars {u : Cell} (h : isValueToken u = true) : '$' ∉ u ∧ '%' ∉ u ∧ ∃ c ∈ u, isDecimal c = true := by
  obtain ⟨a, amount, e⟩ := value_iff.1 h
  obtain ⟨all, c, mem, isDigit⟩ := amount_chars amount
  have clean : ∀ sign : Char, sign = '$' ∨ sign = '%' → sign ∉ a := by
    rintro sign (rfl | rfl) mem
    all_goals
      have := all _ mem
      revert this
      decide
  rcases e with rfl | rfl
  · exact ⟨clean _ (.inl rfl), clean _ (.inr rfl), c, mem, isDigit⟩
  · simp only [List.mem_append, List.mem_singleton, not_or]
    exact ⟨⟨clean _ (.inl rfl), by decide⟩, ⟨clean _ (.inr rfl), by decide⟩, c, .inl mem, isDigit⟩

theorem value_not_percent {u : Cell} (h : isValueToken u = true) : percentValuePattern.fullmatch u = false := by
  rw [Bool.eq_false_iff]
  intro percent
  obtain ⟨v, -, rfl⟩ := percent_iff.1 percent
  exact (value_chars h).2.1 (by simp)

theorem value_not_sign {u : Cell} (h : isValueToken u = true) : ¬ (u = ['$'] ∨ u = ['%']) := by
  rintro (rfl | rfl)
  · exact (value_chars h).1 (by simp)
  · exact (value_chars h).2.1 (by simp)

theorem value_head {u : Cell} (h : isValueToken u = true) : u.head? ≠ some '$' :=
  fun head => (value_chars h).1 (List.mem_of_head? head)

/-! ## One step of the reading -/

section Steps

variable {token : Cell} {tokens : List Cell}

/-- The cell starts a group that belongs to no cell before it. -/
def Fresh (tokens : List Cell) : Prop :=
  ∀ token, tokens.head? = some token → token ≠ ['%'] ∧ token ≠ [')']

theorem Fresh.next (h : Fresh tokens) : tokens.head?.getD [] ≠ ['%'] ∧ tokens.head?.getD [] ≠ [')'] := by
  cases e : tokens.head? with
  | none => exact ⟨by decide, by decide⟩
  | some token => exact h token e

theorem read_sign (h : token = ['$'] ∨ token = ['%']) :
    extractDataValues false false (token :: tokens) = extractDataValues false false tokens := by
  rw [extractDataValues]
  exact if_pos h

theorem read_money {v : Cell} (value : isValueToken v = true) :
    extractDataValues false false (('$' :: v) :: tokens) = v :: extractDataValues false false tokens := by
  have some_ : v ≠ [] := by
    rintro rfl
    obtain ⟨c, mem, -⟩ := (value_chars value).2.2
    cases mem
  have notSign : ¬ ('$' :: v = ['$'] ∨ '$' :: v = ['%']) := by
    rintro (e | e)
    · exact some_ (List.cons.inj e).2
    · cases e
  rw [extractDataValues, if_neg notSign, if_pos ⟨rfl, value⟩]
  rfl

theorem read_percent {v : Cell} (value : isValueToken v = true) :
    extractDataValues false false ((v ++ ['%']) :: tokens) = (v ++ ['%']) :: extractDataValues false false tokens := by
  obtain ⟨-, -, c, mem, -⟩ := value_chars value
  have notSign : ¬ (v ++ ['%'] = ['$'] ∨ v ++ ['%'] = ['%']) := by
    rintro (e | e)
    · exact absurd (congrArg List.getLast? e) (by rw [List.getLast?_concat]; decide)
    · rw [List.append_left_eq_self.1 e] at mem
      cases mem
  have noMoney : ¬ ((v ++ ['%']).head? = some '$' ∧ isValueToken (v ++ ['%']).tail = true) := by
    rintro ⟨head, -⟩
    rw [List.head?_append_of_ne_nil _ (List.ne_nil_of_mem mem)] at head
    exact value_head value head
  rw [extractDataValues, if_neg notSign, if_neg noMoney, if_pos (percent_iff.2 ⟨v, value, rfl⟩)]
  rfl

/-- What is left of the cases for a cell with a value. -/
theorem read_value_cases (value : isValueToken token = true) :
    extractDataValues false false (token :: tokens) =
      if tokens.head?.getD [] = ['%'] then (token ++ ['%']) :: extractDataValues false true tokens
      else if token.head? = some '(' ∧ tokens.head?.getD [] = [')'] then
        (token ++ [')']) :: extractDataValues false true tokens
      else token :: extractDataValues false false tokens := by
  rw [extractDataValues, if_neg (value_not_sign value), if_neg (fun h => value_head value h.1),
    if_neg (Bool.eq_false_iff.1 (value_not_percent value)), if_neg (fun h => Bool.false_ne_true h.2.2)]
  simp only [value, true_and, if_true]

theorem read_value_percent (value : isValueToken token = true) :
    extractDataValues false false (token :: ['%'] :: tokens) =
      (token ++ ['%']) :: extractDataValues false false tokens := by
  rw [read_value_cases value, List.head?_cons, Option.getD_some, if_pos rfl, extractDataValues]

theorem read_value_closed (value : isValueToken token = true) (opened : token.head? = some '(') :
    extractDataValues false false (token :: [')'] :: tokens) =
      (token ++ [')']) :: extractDataValues false false tokens := by
  rw [read_value_cases value, List.head?_cons, Option.getD_some, if_neg (by decide), if_pos ⟨opened, rfl⟩,
    extractDataValues]

theorem read_value (value : isValueToken token = true) (percent : tokens.head?.getD [] ≠ ['%'])
    (closing : tokens.head?.getD [] ≠ [')']) :
    extractDataValues false false (token :: tokens) = token :: extractDataValues false false tokens := by
  rw [read_value_cases value, if_neg percent, if_neg fun h => closing h.2]

/-- A cell that no test recognises. -/
def isNumberCell (text : Cell) : Bool :=
  isValueToken text || percentValuePattern.fullmatch text || (text.head? == some '$' && isValueToken text.tail)

theorem percent_next : ((['%'] : Cell) :: tokens).head?.getD [] ≠ [')'] := by
  rw [List.head?_cons]
  decide

theorem read_other (other : isNumberCell token = false) (closing : tokens.head?.getD [] ≠ [')']) :
    extractDataValues false false (token :: tokens) = extractDataValues false false tokens := by
  simp only [isNumberCell, Bool.or_eq_false_iff, Bool.and_eq_false_iff, beq_eq_false_iff_ne] at other
  obtain ⟨⟨value, percent⟩, money⟩ := other
  rw [extractDataValues]
  split
  · rfl
  · rw [if_neg, if_neg (Bool.eq_false_iff.1 percent), if_neg (fun h => Bool.eq_false_iff.1 value h.1),
      if_neg (fun h => Bool.eq_false_iff.1 value h.1), if_neg (fun h => closing h.2), if_neg (Bool.eq_false_iff.1 value)]
    rintro ⟨head, tail⟩
    rcases money with money | money
    · exact money head
    · exact Bool.eq_false_iff.1 money tail

end Steps

/-! ## Groups -/

/-- Where a sign stands: nowhere, in a cell of its own, or in the cell of its neighbour. -/
inductive Placement where
  | absent
  | apart
  | attached
deriving DecidableEq

/-- The sign, where it shares a cell. -/
def Placement.here (p : Placement) (sign : Char) : Cell :=
  match p with
  | .attached => [sign]
  | _ => []

/-- The cell of a sign of its own. -/
def Placement.alone (p : Placement) (sign : Char) : List Cell :=
  match p with
  | .apart => [[sign]]
  | _ => []

/-- The sign, wherever it stands. -/
def Placement.anywhere (p : Placement) (sign : Char) : Cell :=
  match p with
  | .absent => []
  | _ => [sign]

/-- A number with its signs. A closing parenthesis closes one, and a cell that starts with a
currency sign and ends with a percent sign is no number. -/
structure NumberGroup where
  amount : Cell
  currency : Placement
  closing : Placement
  percent : Placement
  isAmount : amountPattern.fullmatch amount = true
  opened : closing ≠ .absent → amount.head? = some '('
  oneSign : currency = .attached → percent = .attached → closing = .apart

/-- The cells of a number. -/
def NumberGroup.cells (g : NumberGroup) : List Cell :=
  g.currency.alone '$' ++
    ((match g.closing with
      | .apart => [g.currency.here '$' ++ g.amount, ')' :: g.percent.here '%']
      | _ => [g.currency.here '$' ++ (g.amount ++ (g.closing.here ')' ++ g.percent.here '%'))]) ++
      g.percent.alone '%')

/-- The number itself: its amount, with the parenthesis and the percent sign that belong to it. -/
def NumberGroup.number (g : NumberGroup) : Cell :=
  g.amount ++ (g.closing.anywhere ')' ++ g.percent.anywhere '%')

/-- A cell that is no number and no sign, with signs around it. -/
structure Placeholder where
  text : Cell
  currency : Bool
  percent : Bool
  noNumber : isNumberCell text = false
  noSign : text ≠ ['%'] ∧ text ≠ [')']

def Placeholder.cells (p : Placeholder) : List Cell :=
  (if p.currency then [['$']] else []) ++ (p.text :: if p.percent then [['%']] else [])

inductive Group where
  | number (g : NumberGroup)
  | placeholder (p : Placeholder)

def Group.cells : Group → List Cell
  | number g => g.cells
  | placeholder p => p.cells

/-- What the extractor takes from the cells of a number. -/
def NumberGroup.reading (g : NumberGroup) : Cell :=
  match g.currency, g.closing, g.percent with
  | .attached, closing, _ => g.amount ++ closing.here ')'
  | _, .apart, .attached => g.amount
  | _, .apart, _ => g.amount ++ [')']
  | _, closing, percent => g.amount ++ (closing.here ')' ++ percent.anywhere '%')

section Numbers

variable {v : Cell} {tokens : List Cell}

/-- A value and a percent sign, in one cell or in two. -/
theorem read_share (value : isValueToken v = true) (percent : Placement) (fresh : Fresh tokens) :
    extractDataValues false false ((v ++ percent.here '%') :: (percent.alone '%' ++ tokens)) =
      (v ++ percent.anywhere '%') :: extractDataValues false false tokens := by
  cases percent with
  | absent =>
    show extractDataValues false false ((v ++ []) :: tokens) = (v ++ []) :: _
    rw [List.append_nil]
    exact read_value value fresh.next.1 fresh.next.2
  | apart =>
    show extractDataValues false false ((v ++ []) :: ['%'] :: tokens) = _
    rw [List.append_nil]
    exact read_value_percent value
  | attached => exact read_percent value

/-- A closing parenthesis apart is no value, and neither is one with a percent sign. -/
theorem read_closing (percent : Placement) (fresh : Fresh tokens) :
    extractDataValues false false ((')' :: percent.here '%') :: (percent.alone '%' ++ tokens)) =
      extractDataValues false false tokens := by
  cases percent with
  | absent => exact read_other (by decide) fresh.next.2
  | apart =>
    show extractDataValues false false ([')'] :: ['%'] :: tokens) = _
    rw [read_other (by decide) percent_next, read_sign (.inr rfl)]
  | attached => exact read_other (by decide) fresh.next.2

/-- A parenthesized number whose closing parenthesis stands apart. -/
theorem read_parenthesized (value : isValueToken v = true) (opened : v.head? = some '(') (percent : Placement)
    (fresh : Fresh tokens) :
    extractDataValues false false (v :: (')' :: percent.here '%') :: (percent.alone '%' ++ tokens)) =
      (match percent with
        | .attached => v
        | _ => v ++ [')']) :: extractDataValues false false tokens := by
  cases percent with
  | absent => exact read_value_closed value opened
  | apart =>
    show extractDataValues false false (v :: [')'] :: ['%'] :: tokens) = _
    rw [read_value_closed value opened, read_sign (.inr rfl)]
  | attached =>
    have apart := read_closing .attached fresh
    show extractDataValues false false (v :: [')', '%'] :: tokens) = _
    rw [read_value value (by rw [List.head?_cons]; decide) (by rw [List.head?_cons]; decide)]
    exact congrArg (List.cons v) apart

end Numbers

/-- The value in the cells of a number, wherever the parenthesis is. -/
theorem NumberGroup.closed_value (g : NumberGroup) : isValueToken (g.amount ++ g.closing.here ')') = true := by
  cases g.closing with
  | attached => exact amount_closed_value g.isAmount
  | _ =>
    show isValueToken (g.amount ++ []) = true
    rw [List.append_nil]
    exact amount_value g.isAmount

/-- **A number is read as one value.** -/
theorem NumberGroup.read (g : NumberGroup) {tokens : List Cell} (fresh : Fresh tokens) :
    extractDataValues false false (g.cells ++ tokens) = g.reading :: extractDataValues false false tokens := by
  have closed := g.closed_value
  have value := amount_value g.isAmount
  obtain ⟨amount, currency, closing, percent, isAmount, opened, oneSign⟩ := g
  cases currency with
  | attached =>
    cases closing with
    | apart =>
      show extractDataValues false false (('$' :: amount) :: (')' :: percent.here '%') :: (percent.alone '%' ++ tokens)) =
        (amount ++ []) :: _
      rw [read_money value, read_closing percent fresh, List.append_nil]
    | _ =>
      cases percent with
      | attached => exact absurd (oneSign rfl rfl) (by decide)
      | absent =>
        refine Eq.trans ?_ (read_money closed)
        rw [NumberGroup.cells, NumberGroup.reading]
        simp [Placement.here, Placement.alone]
      | apart =>
        refine Eq.trans ?_ ((read_money closed).trans (congrArg (List.cons _) (read_sign (.inr rfl))))
        rw [NumberGroup.cells]
        simp [Placement.here, Placement.alone]
  | absent =>
    cases closing with
    | apart =>
      cases percent
      all_goals exact read_parenthesized value (opened (by decide)) _ fresh
    | _ =>
      have share := read_share closed percent fresh
      rw [List.append_assoc, List.append_assoc] at share
      exact share
  | apart =>
    refine (read_sign (.inl rfl)).trans ?_
    cases closing with
    | apart =>
      cases percent
      all_goals exact read_parenthesized value (opened (by decide)) _ fresh
    | _ =>
      have share := read_share closed percent fresh
      rw [List.append_assoc, List.append_assoc] at share
      exact share

/-- A placeholder yields no value. -/
theorem Placeholder.read (p : Placeholder) {tokens : List Cell} (fresh : Fresh tokens) :
    extractDataValues false false (p.cells ++ tokens) = extractDataValues false false tokens := by
  have behind : extractDataValues false false (p.text :: ((if p.percent then [['%']] else []) ++ tokens)) =
      extractDataValues false false tokens := by
    cases p.percent with
    | true =>
      show extractDataValues false false (p.text :: ['%'] :: tokens) = _
      rw [read_other p.noNumber percent_next, read_sign (.inr rfl)]
    | false => exact read_other p.noNumber fresh.next.2
  rw [Placeholder.cells]
  cases p.currency with
  | true =>
    show extractDataValues false false (['$'] :: p.text :: ((if p.percent then [['%']] else []) ++ tokens)) = _
    rw [read_sign (.inl rfl), behind]
  | false => exact behind

section Row

variable {label : Cell} {years : List Cell} {groups : List Group}

end Row

/-! ## A table -/

end Ingestion
