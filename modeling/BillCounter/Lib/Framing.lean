/-!
# Streams of self-delimiting records

A stream carries records one behind the other, with nothing between them and no
escaping inside them.  A parser that takes one record off the front of what it is
given recovers the whole list, and stops in front of a record that was cut short.
What it needs is that it reads each record back whatever follows it
(`ReadsBack`), and that more input never changes what it has read (`Extends`).
-/

namespace BillCounter.Lib.Framing

universe u v

variable {α : Type u} {β : Type v}

/-- A parser of one record: the record, and what follows it. -/
abbrev Parser (α : Type u) (β : Type v) := List β → Option (α × List β)

/-- Take off up to `n` records. -/
def parseUpTo (parse : Parser α β) : Nat → List β → List α × List β
  | 0, bs => ([], bs)
  | n + 1, bs =>
      match parse bs with
      | none => ([], bs)
      | some (a, rest) => (a :: (parseUpTo parse n rest).1, (parseUpTo parse n rest).2)

/-- Take off records as long as there are any, and keep what is left. -/
def parseAll (parse : Parser α β) (bs : List β) : List α × List β :=
  parseUpTo parse bs.length bs

/-- The bytes `code` are read back as `a`. -/
def ReadsBack (parse : Parser α β) (code : List β) (a : α) : Prop :=
  ∀ rest, parse (code ++ rest) = some (a, rest)

/-- More input does not change what was read. -/
def Extends (parse : Parser α β) : Prop :=
  ∀ bs a rest more, parse bs = some (a, rest) → parse (bs ++ more) = some (a, rest ++ more)

variable {parse : Parser α β} {γ : Type u} {encode : γ → List β} {value : γ → α}

/-- No record is the beginning of another. -/
theorem parse_eq_none_of_prefix (hext : Extends parse) {code tail : List β} {a : α}
    (hcode : ReadsBack parse code a) (hbefore : tail <+: code) (hne : tail ≠ code) :
    parse tail = none := by
  obtain ⟨more, hmore⟩ := hbefore
  cases htail : parse tail with
  | none => rfl
  | some p =>
      have hwhole := hext tail p.1 p.2 more htail
      have hread := hcode []
      rw [List.append_nil] at hread
      rw [hmore, hread] at hwhole
      have hnil : p.2 ++ more = [] := (congrArg Prod.snd (Option.some.inj hwhole)).symm
      have hempty : more = [] := (List.append_eq_nil_iff.mp hnil).2
      rw [hempty, List.append_nil] at hmore
      exact absurd hmore hne

theorem parseUpTo_flatMap {xs : List γ} (h : ∀ x ∈ xs, ReadsBack parse (encode x) (value x))
    {tail : List β} (htail : parse tail = none) {n : Nat} (hn : xs.length ≤ n) :
    parseUpTo parse n (xs.flatMap encode ++ tail) = (xs.map value, tail) := by
  induction xs generalizing n with
  | nil =>
      cases n with
      | zero => rfl
      | succ n =>
          rw [List.flatMap_nil, List.nil_append, parseUpTo, htail]
          rfl
  | cons x xs ih =>
      cases n with
      | zero => exact absurd hn (Nat.not_succ_le_zero _)
      | succ n =>
          have hx := h x List.mem_cons_self
          have hxs := ih (fun y hy => h y (List.mem_cons_of_mem x hy))
            (Nat.le_of_succ_le_succ hn)
          rw [List.flatMap_cons, List.append_assoc, parseUpTo, hx]
          dsimp only
          rw [hxs]
          rfl

theorem length_le_length_flatMap (h : ∀ x, encode x ≠ []) (xs : List γ) :
    xs.length ≤ (xs.flatMap encode).length := by
  induction xs with
  | nil => exact Nat.le_refl 0
  | cons x xs ih =>
      have hx := List.length_pos_iff.mpr (h x)
      rw [List.length_cons, List.flatMap_cons, List.length_append]
      omega

/-- The parser recovers the records, and leaves what is no record. -/
theorem parseAll_flatMap (hne : ∀ x, encode x ≠ []) {xs : List γ}
    (h : ∀ x ∈ xs, ReadsBack parse (encode x) (value x)) {tail : List β}
    (htail : parse tail = none) :
    parseAll parse (xs.flatMap encode ++ tail) = (xs.map value, tail) := by
  apply parseUpTo_flatMap h htail
  rw [List.length_append]
  exact Nat.le_add_right_of_le (length_le_length_flatMap hne xs)

end BillCounter.Lib.Framing
