import MapReplica.Proofs.Expiry.Order
import MapReplica.Proofs.Tile.Notation

/-!
# Numerals in the order of lines

The numeral of the next number differs from a numeral in one digit, which grows by one, and in
the nines behind it, which become zeros. So nothing stands between the two in the order of
lines but what properly extends the first one, or what properly begins the second one and not
the first. If the numeral grows in length, it falls behind its successor.

Lines between two tiles of one column are of this column as well, so that it is enough to
compare the rows.
-/

namespace MapReplica.Expiry

variable {line other third text next : Line} {a b c : Char} {restA restB : Line}

/-! ## What stands before -/

/-- A line stands before another one in the order of lines. -/
def Before (line other : Line) : Prop :=
  Precedes line other ∧ line ≠ other

theorem Before.irrefl (line : Line) : ¬ Before line line :=
  fun before => before.2 rfl

theorem Before.asymm (before : Before line other) : ¬ Before other line :=
  fun after => before.2 (before.1.antisymm after.1)

@[simp]
theorem before_nil_iff : Before [] other ↔ other ≠ [] :=
  ⟨fun before => Ne.symm before.2, fun other' => ⟨precedes_nil other, Ne.symm other'⟩⟩

@[simp]
theorem not_before_nil (line : Line) : ¬ Before line [] := by
  rintro ⟨before, other⟩
  cases line with
  | nil => exact other rfl
  | cons c rest => exact not_precedes_nil c rest before

@[simp]
theorem before_cons_iff :
    Before (a :: restA) (b :: restB) ↔ a.toNat < b.toNat ∨ a = b ∧ Before restA restB := by
  rw [Before, precedes_cons_iff]
  constructor
  · rintro ⟨less | ⟨rfl, before⟩, other⟩
    · exact .inl less
    · exact .inr ⟨rfl, before, fun same => other (congrArg (a :: ·) same)⟩
  · rintro (less | ⟨rfl, before, other⟩)
    · refine ⟨.inl less, fun same => ?_⟩
      rw [(List.cons.inj same).1] at less
      exact absurd less (Nat.lt_irrefl _)
    · exact ⟨.inr ⟨rfl, before⟩, fun same => other (List.cons.inj same).2⟩

theorem before_append_iff (front : Line) :
    Before (front ++ line) (front ++ other) ↔ Before line other := by
  induction front with
  | nil => rfl
  | cons c rest ih => simp [ih]

/-- What stands between two lines with one beginning has this beginning as well. -/
theorem exists_of_between {front : Line} (after : Before (front ++ line) third)
    (before : Before third (front ++ other)) : ∃ rest, third = front ++ rest := by
  induction front generalizing third with
  | nil => exact ⟨third, rfl⟩
  | cons c front ih =>
      cases third with
      | nil => exact (not_before_nil _ after).elim
      | cons d third =>
          simp only [List.cons_append, before_cons_iff] at after before
          have same : c = d := by
            refine Char.toNat_inj.mp ?_
            rcases after with less | ⟨rfl, -⟩
            · rcases before with less' | ⟨rfl, -⟩
              · omega
              · rfl
            · rfl
          subst same
          obtain ⟨rest, rfl⟩ := ih (by simpa using after) (by simpa using before)
          exact ⟨rest, rfl⟩

/-! ## Between a numeral and the next one -/

/-- A text comes between a text and the next one: it extends the first one, or begins the second one only. -/
def Parts (text next third : Line) : Prop :=
  (text <+: third ∧ third ≠ text) ∨ (third <+: next ∧ third ≠ next ∧ ¬ third <+: text)

instance (text next third : Line) : Decidable (Parts text next third) :=
  inferInstanceAs (Decidable (_ ∨ _))

theorem parts_cons_iff :
    Parts (a :: text) (a :: next) (c :: third) ↔ a = c ∧ Parts text next third := by
  simp only [Parts, List.cons_prefix_cons, ne_eq, List.cons.injEq]
  grind

/-- Behind nines, among digits, stands only what extends them. -/
theorem nines_before_iff (nines : Nat) (most : ∀ c ∈ text, c.toNat ≤ '9'.toNat) :
    Before (List.replicate nines '9') text ↔
      List.replicate nines '9' <+: text ∧ text ≠ List.replicate nines '9' := by
  induction nines generalizing text with
  | zero => simp
  | succ nines ih =>
      cases text with
      | nil => simp [List.replicate_succ]
      | cons c rest =>
          have least := most c List.mem_cons_self
          rw [List.replicate_succ, before_cons_iff, List.cons_prefix_cons,
            ih fun d member => most d (List.mem_cons_of_mem c member)]
          constructor
          · rintro (greater | ⟨rfl, front, other⟩)
            · omega
            · exact ⟨⟨rfl, front⟩, fun same => other (List.cons.inj same).2⟩
          · rintro ⟨⟨rfl, front⟩, other⟩
            exact .inr ⟨rfl, front, fun same => other (congrArg _ same)⟩

/-- Before zeros, among digits, stands only what properly begins them. -/
theorem before_zeros_iff (zeros : Nat) (least : ∀ c ∈ text, '0'.toNat ≤ c.toNat) :
    Before text (List.replicate zeros '0') ↔
      text <+: List.replicate zeros '0' ∧ text ≠ List.replicate zeros '0' := by
  induction zeros generalizing text with
  | zero => simp
  | succ zeros ih =>
      cases text with
      | nil => simp [List.replicate_succ]
      | cons c rest =>
          have most := least c List.mem_cons_self
          rw [List.replicate_succ, before_cons_iff, List.cons_prefix_cons,
            ih fun d member => least d (List.mem_cons_of_mem c member)]
          constructor
          · rintro (less | ⟨rfl, front, other⟩)
            · omega
            · exact ⟨⟨rfl, front⟩, fun same => other (List.cons.inj same).2⟩
          · rintro ⟨⟨rfl, front⟩, other⟩
            exact .inr ⟨rfl, front, fun same => other (congrArg _ same)⟩

/-- Between a digit before nines and the next digit before zeros. -/
theorem between_carried_iff (front : Line) {d : Nat} (small : d < 9) (nines : Nat)
    (digits : ∀ c ∈ third, '0'.toNat ≤ c.toNat ∧ c.toNat ≤ '9'.toNat) :
    Before (front ++ Nat.digitChar d :: List.replicate nines '9') third ∧
        Before third (front ++ Nat.digitChar (d + 1) :: List.replicate nines '0') ↔
      Parts (front ++ Nat.digitChar d :: List.replicate nines '9')
        (front ++ Nat.digitChar (d + 1) :: List.replicate nines '0') third := by
  induction front generalizing third with
  | nil =>
      cases third with
      | nil => simp [Parts]
      | cons c rest =>
          have code := Nat.toNat_digitChar_of_lt_ten (n := d) (by omega)
          have code' := Nat.toNat_digitChar_of_lt_ten (n := d + 1) (by omega)
          have apart : Nat.digitChar d ≠ Nat.digitChar (d + 1) := by
            intro same
            rw [← Char.toNat_inj] at same
            omega
          have later (c' : Char) (member : c' ∈ rest) := digits c' (List.mem_cons_of_mem c member)
          simp only [List.nil_append, before_cons_iff, Parts, List.cons_prefix_cons, ne_eq,
            List.cons.injEq, nines_before_iff nines fun c' member => (later c' member).2,
            before_zeros_iff nines fun c' member => (later c' member).1]
          -- The digits are neighbours, so the first character is one of the two.
          by_cases low : c = Nat.digitChar d
          · subst low
            simp [apart, code, code']
          · by_cases high : c = Nat.digitChar (d + 1)
            · subst high
              simp [apart, apart.symm, code, code']
            · simp only [low, high, Ne.symm low, false_and, or_false, iff_false, not_and]
              intro more less
              omega
  | cons a front ih =>
      cases third with
      | nil => simp [Parts]
      | cons c rest =>
          simp only [List.cons_append, parts_cons_iff,
            ← ih fun c' member => digits c' (List.mem_cons_of_mem c member), before_cons_iff]
          grind

open Number (Succession) in
/-- A numeral stands before the next one exactly if it is not shorter. -/
theorem before_succession_iff (succession : Succession text next) :
    Before text next ↔ text.length = next.length := by
  cases succession with
  | @carried front d small nines =>
      have code := Nat.toNat_digitChar_of_lt_ten (n := d) (by omega)
      have code' := Nat.toNat_digitChar_of_lt_ten (n := d + 1) (by omega)
      refine iff_of_true ((before_append_iff front).mpr (before_cons_iff.mpr (.inl ?_))) (by simp)
      omega
  | lengthened nines => simp [List.replicate_succ]

open Number (digits) in
/-- What stands between the numeral of a number and the next one, if they are of one length. -/
theorem between_digits_iff {n : Nat} (level : (digits n).length = (digits (n + 1)).length)
    (numerals : ∀ c ∈ third, '0'.toNat ≤ c.toNat ∧ c.toNat ≤ '9'.toNat) :
    Before (digits n) third ∧ Before third (digits (n + 1)) ↔
      Parts (digits n) (digits (n + 1)) third := by
  have succession := Number.succession_digits n
  generalize digits n = text, digits (n + 1) = next at succession level ⊢
  cases succession with
  | carried front small nines => exact between_carried_iff front small nines numerals
  | lengthened nines => simp at level

/-! ## Lines of one column -/

/-- The notation of the tiles of a column, up to the row. -/
def lead (z x : UInt32) : Line :=
  Number.digits z.toNat ++ '/' :: (Number.digits x.toNat ++ ['/'])

theorem render_eq_lead (tile : Tile) :
    tile.render = lead tile.z tile.x ++ Number.digits tile.y.toNat := by
  simp [Tile.render, lead]

/-- A tile whose notation begins as those of a column is of this column. -/
theorem column_of_render {tile : Tile} {z x : UInt32} {rest : Line}
    (begins : tile.render = lead z x ++ rest) : tile.z = z ∧ tile.x = x := by
  have parts := Tile.splitOn_render tile
  have split : (lead z x ++ rest).splitOn '/' =
      Number.digits z.toNat :: Number.digits x.toNat :: rest.splitOn '/' := by
    simp [lead, List.splitOn_append_cons_self]
  rw [begins, split] at parts
  obtain ⟨zoom, rest'⟩ := List.cons.inj parts
  exact ⟨UInt32.toNat_inj.mp (Number.digits_injective zoom.symm),
    UInt32.toNat_inj.mp (Number.digits_injective (List.cons.inj rest').1.symm)⟩

variable {tile below inner : Tile}

/-- Tiles of one column compare as their rows do. -/
theorem before_render_iff (zoom : below.z = tile.z) (column : below.x = tile.x) :
    Before tile.render below.render ↔
      Before (Number.digits tile.y.toNat) (Number.digits below.y.toNat) := by
  rw [render_eq_lead, render_eq_lead, zoom, column, before_append_iff]

/-- What stands between two tiles of one column is of this column, with a row between theirs. -/
theorem between_render_iff (zoom : below.z = tile.z) (column : below.x = tile.x) :
    Before tile.render inner.render ∧ Before inner.render below.render ↔
      inner.z = tile.z ∧ inner.x = tile.x ∧
        Before (Number.digits tile.y.toNat) (Number.digits inner.y.toNat) ∧
          Before (Number.digits inner.y.toNat) (Number.digits below.y.toNat) := by
  constructor
  · rintro ⟨after, before⟩
    have after' := after
    have before' := before
    rw [render_eq_lead tile] at after'
    rw [render_eq_lead below, zoom, column] at before'
    obtain ⟨rest, begins⟩ := exists_of_between after' before'
    obtain ⟨zoom', column'⟩ := column_of_render begins
    exact ⟨zoom', column', (before_render_iff zoom' column').mp after,
      (before_render_iff (zoom.trans zoom'.symm) (column.trans column'.symm)).mp before⟩
  · rintro ⟨zoom', column', after, before⟩
    exact ⟨(before_render_iff zoom' column').mpr after,
      (before_render_iff (zoom.trans zoom'.symm) (column.trans column'.symm)).mpr before⟩

end MapReplica.Expiry
