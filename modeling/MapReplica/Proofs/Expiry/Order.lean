import MapReplica.Expiry.Run
import MapReplica.Proofs.Text.Utf8
import Mathlib.Data.List.Lex

/-!
# The order of lines

The code points of two lines compare as their octets do, since the octets of a greater
character come behind those of a smaller one, whatever follows. Sorting puts lines in
this order and does nothing else: the sorted lines are those that were given, and two
lists of the same lines are sorted alike.
-/

namespace MapReplica.Expiry

variable {line other third : Line} {order : Order} {lines given : List Line}

/-! ## Octets in the order of characters -/

/-- A text stands before another one as octets. -/
def OctetsBefore (octets other : Bytes) : Prop :=
  List.Lex (fun octet next => octet < next) octets other

theorem octetsBefore_cons_iff {octet next : UInt8} {octets other : Bytes} :
    OctetsBefore (octet :: octets) (next :: other) ↔
      octet < next ∨ octet = next ∧ OctetsBefore octets other :=
  List.cons_lex_cons_iff

theorem octetsBefore_ofNat_iff {m n : Nat} (small : m < 256) (small' : n < 256)
    {octets other : Bytes} :
    OctetsBefore (UInt8.ofNat m :: octets) (UInt8.ofNat n :: other) ↔
      m < n ∨ m = n ∧ OctetsBefore octets other := by
  rw [octetsBefore_cons_iff, UInt8.lt_iff_toNat_lt, ← UInt8.toNat_inj, Utf8.toNat_ofNat small,
    Utf8.toNat_ofNat small']

/-- The octets of a smaller character stand before those of a greater one, whatever follows. -/
theorem octetsBefore_encodeChar {c d : Char} (less : c.toNat < d.toNat) (rest later : Bytes) :
    OctetsBefore (Utf8.encodeChar c ++ rest) (Utf8.encodeChar d ++ later) := by
  obtain ⟨most, -⟩ := Utf8.toNat_lt c
  obtain ⟨most', -⟩ := Utf8.toNat_lt d
  simp only [Utf8.encodeChar]
  -- one case for each pair of widths; the first octet decides if they differ
  repeat' split
  all_goals
    simp (disch := omega) only [List.cons_append, List.nil_append, octetsBefore_ofNat_iff]
    omega

theorem octetsBefore_append_iff (front : Bytes) {octets other : Bytes} :
    OctetsBefore (front ++ octets) (front ++ other) ↔ OctetsBefore octets other := by
  induction front with
  | nil => rfl
  | cons octet rest ih => simpa [octetsBefore_cons_iff] using ih

theorem not_octetsBefore_swap {octets other : Bytes} (before : OctetsBefore octets other) :
    ¬ OctetsBefore other octets :=
  (List.Lex.asymm fun octet next : UInt8 => octet < next).asymm octets other before

/-! ## The order of octets and the order of code points -/

/-- A line is another one or stands before it in the order of the octets. -/
def Precedes (line other : Line) : Prop :=
  line = other ∨ OctetsBefore (Utf8.encodeChars line) (Utf8.encodeChars other)

theorem precedes_nil (line : Line) : Precedes [] line := by
  cases line with
  | nil => exact .inl rfl
  | cons c rest =>
      obtain ⟨octet, octets, first⟩ := List.exists_cons_of_ne_nil (Utf8.encodeChar_ne_nil c)
      refine .inr ?_
      simp only [OctetsBefore, Utf8.encodeChars, List.flatMap_nil, List.flatMap_cons, first]
      exact .nil

theorem not_precedes_nil (c : Char) (rest : Line) : ¬ Precedes (c :: rest) [] := by
  rintro (same | before)
  · cases same
  · exact List.not_lex_nil before

theorem lt_or_eq_or_gt (a b : Char) : a.toNat < b.toNat ∨ a = b ∨ b.toNat < a.toNat := by
  rcases Nat.lt_trichotomy a.toNat b.toNat with less | same | greater
  · exact .inl less
  · exact .inr (.inl (Char.toNat_inj.mp same))
  · exact .inr (.inr greater)

/-- The first characters decide, unless they are the same. -/
theorem precedes_cons_iff {a b : Char} {restA restB : Line} :
    Precedes (a :: restA) (b :: restB) ↔ a.toNat < b.toNat ∨ a = b ∧ Precedes restA restB := by
  have front (c : Char) (rest : Line) :
      Utf8.encodeChars (c :: rest) = Utf8.encodeChar c ++ Utf8.encodeChars rest :=
    List.flatMap_cons
  unfold Precedes
  rw [front, front]
  rcases lt_or_eq_or_gt a b with less | same | greater
  · exact ⟨fun _ => .inl less, fun _ => .inr (octetsBefore_encodeChar less _ _)⟩
  · subst same
    simp [octetsBefore_append_iff]
  · have after := octetsBefore_encodeChar greater (Utf8.encodeChars restB) (Utf8.encodeChars restA)
    constructor
    · rintro (same | before)
      · cases same
        omega
      · exact (not_octetsBefore_swap before after).elim
    · rintro (less | ⟨rfl, -⟩)
      · omega
      · omega

/-- Lines are compared by code points, which is to compare them by octets. -/
theorem notBehind_iff : notBehind line other = true ↔ Precedes line other := by
  induction line generalizing other with
  | nil => exact ⟨fun _ => precedes_nil other, fun _ => rfl⟩
  | cons a restA ih =>
      cases other with
      | nil =>
          constructor
          · intro compared
            cases compared
          · intro before
            exact (not_precedes_nil a restA before).elim
      | cons b restB =>
          rw [precedes_cons_iff, ← ih, notBehind]
          split
          case isTrue same =>
            subst same
            simp
          case isFalse other => simp [other]

instance (line other : Line) : Decidable (Precedes line other) :=
  decidable_of_iff _ notBehind_iff

theorem precedes_total (line other : Line) : Precedes line other ∨ Precedes other line := by
  induction line generalizing other with
  | nil => exact .inl (precedes_nil other)
  | cons a restA ih =>
      cases other with
      | nil => exact .inr (precedes_nil _)
      | cons b restB =>
          rw [precedes_cons_iff, precedes_cons_iff]
          rcases lt_or_eq_or_gt a b with less | same | greater
          · exact .inl (.inl less)
          · rcases ih restB with before | after
            · exact .inl (.inr ⟨same, before⟩)
            · exact .inr (.inr ⟨same.symm, after⟩)
          · exact .inr (.inl greater)

theorem Precedes.antisymm (before : Precedes line other) (after : Precedes other line) :
    line = other := by
  rcases before with same | before
  · exact same
  · rcases after with same | after
    · exact same.symm
    · exact (not_octetsBefore_swap before after).elim

theorem Precedes.trans (before : Precedes line other) (next : Precedes other third) :
    Precedes line third := by
  rcases before with rfl | before
  · exact next
  · rcases next with rfl | next
    · exact .inr before
    · exact .inr (List.lex_trans (fun less more => UInt8.lt_trans less more) before next)

/-! ## Sorted lines -/

/-- Lines stand in an order. -/
def Order.Sorted : Order → List Line → Prop
  | .ascending, lines => lines.Pairwise Precedes
  | .descending, lines => lines.Pairwise fun line next => Precedes next line

instance (order : Order) (lines : List Line) : Decidable (order.Sorted lines) :=
  match order with
  | .ascending => inferInstanceAs (Decidable (lines.Pairwise Precedes))
  | .descending => inferInstanceAs (Decidable (lines.Pairwise fun line next => Precedes next line))

theorem sortUp_sorted (lines : List Line) : Order.ascending.Sorted (sortUp lines) := by
  have compared : (sortUp lines).Pairwise fun line next => notBehind line next = true := by
    refine List.pairwise_mergeSort ?_ ?_ lines
    · intro line other third before next
      exact notBehind_iff.mpr ((notBehind_iff.mp before).trans (notBehind_iff.mp next))
    · intro line other
      simpa [notBehind_iff] using precedes_total line other
  exact compared.imp notBehind_iff.mp

theorem Order.sort_sorted (order : Order) (lines : List Line) : order.Sorted (order.sort lines) := by
  cases order with
  | ascending => exact sortUp_sorted lines
  | descending => exact List.pairwise_reverse.mpr (sortUp_sorted lines)

theorem Order.sort_perm (order : Order) (lines : List Line) : (order.sort lines).Perm lines := by
  have sorted : (sortUp lines).Perm lines := List.mergeSort_perm lines notBehind
  cases order with
  | ascending => exact sorted
  | descending => exact (List.reverse_perm _).trans sorted

@[simp]
theorem Order.mem_sort : line ∈ order.sort lines ↔ line ∈ lines :=
  (order.sort_perm lines).mem_iff

/-- There is one way only to put lines in order. -/
theorem Order.Sorted.unique (sorted : order.Sorted lines) (sorted' : order.Sorted given)
    (same : lines.Perm given) : lines = given := by
  cases order with
  | ascending =>
      exact same.eq_of_pairwise (fun _ _ _ _ before after => before.antisymm after) sorted sorted'
  | descending =>
      exact same.eq_of_pairwise (fun _ _ _ _ after before => before.antisymm after) sorted sorted'

/-- Lines in order are what any list of them is sorted to. -/
theorem Order.Sorted.sort_eq (sorted : order.Sorted given) (same : lines.Perm given) :
    order.sort lines = given :=
  (order.sort_sorted lines).unique sorted ((order.sort_perm lines).trans same)

/-- Lists of the same lines are sorted alike. -/
theorem Order.sort_congr (order : Order) (same : lines.Perm given) :
    order.sort lines = order.sort given :=
  (order.sort_sorted given).sort_eq (same.trans (order.sort_perm given).symm)

theorem Order.Sorted.filter (sorted : order.Sorted lines) (keep : Line → Bool) :
    order.Sorted (lines.filter keep) := by
  cases order with
  | ascending => exact List.Pairwise.filter keep sorted
  | descending => exact List.Pairwise.filter keep sorted

/-- What is left out before sorting may as well be left out after it. -/
theorem Order.sort_filter (order : Order) (lines : List Line) (keep : Line → Bool) :
    order.sort (lines.filter keep) = (order.sort lines).filter keep :=
  ((order.sort_sorted lines).filter keep).sort_eq ((order.sort_perm lines).filter keep).symm

/-! ## The greatest line -/

/-- A line of a list behind which none of the list stands. -/
def IsGreatest (lines : List Line) (greatest : Line) : Prop :=
  greatest ∈ lines ∧ ∀ line ∈ lines, Precedes line greatest

theorem IsGreatest.unique {greatest greatest' : Line} (found : IsGreatest lines greatest)
    (found' : IsGreatest lines greatest') : greatest = greatest' :=
  (found'.2 greatest found.1).antisymm (found.2 greatest' found'.1)

theorem Order.Sorted.isGreatest {greatest : Line} (sorted : order.Sorted lines)
    (found : order.greatest? lines = some greatest) : IsGreatest lines greatest := by
  cases order with
  | ascending =>
      obtain ⟨front, rfl⟩ := List.getLast?_eq_some_iff.mp found
      refine ⟨by simp, ?_⟩
      intro line member
      rcases List.mem_append.mp member with before | last
      · exact (List.pairwise_append.mp sorted).2.2 line before greatest (by simp)
      · exact .inl (List.mem_singleton.mp last)
  | descending =>
      obtain ⟨rest, rfl⟩ := List.head?_eq_some_iff.mp found
      refine ⟨by simp, ?_⟩
      intro line member
      rcases List.mem_cons.mp member with first | after
      · exact .inl first
      · exact (List.pairwise_cons.mp sorted).1 line after

theorem Order.greatest?_eq_none_iff (order : Order) : order.greatest? lines = none ↔ lines = [] := by
  cases order with
  | ascending => exact List.getLast?_eq_none_iff
  | descending => exact List.head?_eq_none_iff

/-- The zoom that the greatest of the lines starts with; zero if it starts with none. -/
def DeepestZoom (lines : List Line) (zoom : UInt32) : Prop :=
  lines = [] ∧ zoom = 0 ∨ ∃ greatest, IsGreatest lines greatest ∧ zoom = (zoom? greatest).getD 0

theorem Order.deepestZoom (order : Order) (lines : List Line) :
    DeepestZoom lines (order.deepest (order.sort lines)) := by
  cases found : order.greatest? (order.sort lines) with
  | none =>
      have nothing : order.sort lines = [] := order.greatest?_eq_none_iff.mp found
      refine .inl ⟨(nothing ▸ order.sort_perm lines).symm.eq_nil, ?_⟩
      rw [deepest, found]
      rfl
  | some greatest =>
      obtain ⟨member, last⟩ := (order.sort_sorted lines).isGreatest found
      refine .inr ⟨greatest, ⟨mem_sort.mp member, fun line here => last line (mem_sort.mpr here)⟩, ?_⟩
      rw [deepest, found]
      rfl

end MapReplica.Expiry
