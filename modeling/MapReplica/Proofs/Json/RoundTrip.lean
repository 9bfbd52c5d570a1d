import Mathlib.Data.Bool.AllAny
import MapReplica.Json.Reader
import MapReplica.Proofs.Json.Numerals
import MapReplica.Proofs.Json.Tokens

/-!
# Reading what was written

A value is read back from its compact form, with the members of its objects in their order.
Doubles are left aside, whole numbers have to fit into 64 bits, and the value must not be nested
deeper than the reading machine goes.
-/

namespace MapReplica.Json

variable {levels : Nat} {text word : List Char} {value : Json} {items : List Json}
  {members : List (String × Json)} {start middle finish : Reading} {token : Token}
  {front back rest : List Token}

/-- A value without doubles, with whole numbers of 64 bits and with so many levels at most. -/
inductive Legible : Nat → Json → Prop
  | null {levels : Nat} : Legible levels .null
  | bool {levels : Nat} (value : Bool) : Legible levels (.bool value)
  | natural {levels n : Nat} (fits : n ≤ Number.max64) : Legible levels (.integer n)
  | negative {levels n : Nat} (fits : n ≤ Number.maxSigned64) :
      Legible levels (.integer (.negSucc n))
  | text {levels : Nat} (value : String) : Legible levels (.text value)
  | array {levels : Nat} {items : List Json} (inside : ∀ item ∈ items, Legible levels item) :
      Legible (levels + 1) (.array items)
  | object {levels : Nat} {members : List (String × Json)}
      (inside : ∀ member ∈ members, Legible levels member.2) :
      Legible (levels + 1) (.object members)

/-! ## Runs of the machine -/

/-- Tokens take the machine from one state to another. -/
def Reading.Takes (start : Reading) (tokens : List Token) (finish : Reading) : Prop :=
  tokens.foldlM Reading.step start = some finish

theorem Reading.Takes.nothing : start.Takes [] start :=
  rfl

theorem Reading.Takes.cons (step : start.step token = some middle)
    (others : middle.Takes rest finish) : start.Takes (token :: rest) finish := by
  rw [Takes, List.foldlM_cons, step]
  exact others

theorem Reading.Takes.append (first : start.Takes front middle)
    (second : middle.Takes back finish) : start.Takes (front ++ back) finish := by
  rw [Takes, List.foldlM_append, first]
  exact second

/--
A text is read as tokens that take the machine through a value, wherever a value may stand and
so many levels are left.
-/
def Readable (levels : Nat) (text : List Char) (value : Json) : Prop :=
  ∃ tokens, Place.between.Reads text tokens ∧
    ∀ (outer : List Enclosure) (optional : Bool), outer.length + levels ≤ deepest →
      Reading.Takes ⟨outer, .value optional⟩ tokens (.after outer value)

/-! ## Scalars -/

theorem readable_renderText (content : String) :
    Readable levels (renderText content) (.text content) :=
  ⟨_, reads_renderText content, fun _ _ _ => .cons rfl .nothing⟩

/-- A word is read as the scalar that it spells. -/
theorem readable_word (nonempty : word ≠ []) (inside : ∀ c ∈ word, IsLetter c)
    (spells : scalar? word = some value) : Readable levels word value :=
  ⟨_, reads_word nonempty inside spells, fun _ _ _ => .cons rfl .nothing⟩

theorem isLetter_of_mem_digits {n : Nat} : ∀ c ∈ Number.digits n, IsLetter c :=
  Number.forall_mem_digits (by decide) n

/-- Each of the three names has one of two letters that no number has. -/
theorem scalar?_eq_number? (noL : 'l' ∉ word) (noE : 'e' ∉ word) : scalar? word = number? word := by
  rw [scalar?, if_neg, if_neg, if_neg]
  · rintro rfl
    exact noE (by decide)
  · rintro rfl
    exact noE (by decide)
  · rintro rfl
    exact noL (by decide)

theorem readable_natural {n : Nat} (fits : n ≤ Number.max64) :
    Readable levels (Json.integer n).render (.integer n) := by
  have written : (Json.integer n).render = Number.digits n := String.toList_ofList
  rw [written]
  refine readable_word (Number.digits_ne_nil n) isLetter_of_mem_digits ?_
  rw [scalar?_eq_number? (Number.not_mem_digits (by decide))
    (Number.not_mem_digits (by decide))]
  exact number?_digits fits

theorem readable_negative {n : Nat} (fits : n ≤ Number.maxSigned64) :
    Readable levels (Json.integer (.negSucc n)).render (.integer (.negSucc n)) := by
  have written : (Json.integer (.negSucc n)).render = '-' :: Number.digits (n + 1) := by
    simp [render, Number.signed, Number.numeral]
  rw [written]
  refine readable_word (List.cons_ne_nil _ _)
    (List.forall_mem_cons.mpr ⟨by decide, isLetter_of_mem_digits⟩) ?_
  rw [scalar?_eq_number?]
  · exact number?_negative (Nat.succ_pos n) (Nat.succ_le_succ fits)
  all_goals
    rw [List.mem_cons, not_or]
    exact ⟨by decide, Number.not_mem_digits (by decide)⟩

/-! ## Arrays -/

/-- The items of an array, up to its closing bracket and with those before them. -/
theorem exists_tokens_of_items (nonempty : items ≠ [])
    (inside : ∀ item ∈ items, Readable levels item.render item) :
    ∃ tokens, Place.between.Reads (renderItems items ++ [']']) tokens ∧
      ∀ (outer : List Enclosure) (before : List Json) (optional : Bool),
        outer.length + (levels + 1) ≤ deepest →
          Reading.Takes ⟨.array before :: outer, .value optional⟩ tokens
            (.after outer (.array (before.reverse ++ items))) := by
  induction items with
  | nil => exact absurd rfl nonempty
  | cons item rest ih =>
      obtain ⟨⟨tokens, reads, takes⟩, others⟩ := List.forall_mem_cons.mp inside
      have room {outer : List Enclosure} {before : List Json}
          (left : outer.length + (levels + 1) ≤ deepest) :
          (Enclosure.array before :: outer).length + levels ≤ deepest := by
        rw [List.length_cons]
        omega
      cases rest with
      | nil =>
          refine ⟨_, reads.mark rfl reads_nil, fun outer before optional left => ?_⟩
          rw [← List.reverse_cons]
          exact (takes _ optional (room left)).append (.cons rfl .nothing)
      | cons next rest =>
          obtain ⟨tokens', reads', takes'⟩ := ih (List.cons_ne_nil next rest) others
          have both := reads.mark (c := ',') rfl reads'
          rw [← List.cons_append, ← List.append_assoc] at both
          refine ⟨_, both, fun outer before optional left => ?_⟩
          have later := takes' outer (item :: before) false left
          rw [List.reverse_cons, List.append_assoc] at later
          exact (takes _ optional (room left)).append (.cons rfl later)

theorem readable_array (inside : ∀ item ∈ items, Readable levels item.render item) :
    Readable (levels + 1) (Json.array items).render (.array items) := by
  have opens {outer : List Enclosure} (optional : Bool)
      (left : outer.length + (levels + 1) ≤ deepest) :
      Reading.step ⟨outer, .value optional⟩ .openArray = some ⟨.array [] :: outer, .value true⟩ :=
    if_pos (by omega)
  rw [render]
  by_cases empty : items = []
  · subst empty
    have reads := reads_nil.mark (c := '[') rfl (reads_nil.mark (c := ']') rfl reads_nil)
    exact ⟨_, reads, fun outer optional left => .cons (opens optional left) (.cons rfl .nothing)⟩
  · obtain ⟨tokens, reads, takes⟩ := exists_tokens_of_items empty inside
    exact ⟨_, reads_nil.mark (c := '[') rfl reads, fun outer optional left =>
      .cons (opens optional left) (takes outer [] true left)⟩

/-! ## Objects -/

/-- The members of an object, up to its closing bracket and with those before them. -/
theorem exists_tokens_of_members (nonempty : members ≠ [])
    (inside : ∀ member ∈ members, Readable levels member.2.render member.2) :
    ∃ tokens, Place.between.Reads (renderMembers members ++ ['}']) tokens ∧
      ∀ (outer : List Enclosure) (before : List (String × Json)) (optional : Bool),
        outer.length + (levels + 1) ≤ deepest →
          Reading.Takes ⟨outer, .name before optional⟩ tokens
            (.after outer (.object (before.reverse ++ members))) := by
  induction members with
  | nil => exact absurd rfl nonempty
  | cons member rest ih =>
      obtain ⟨name, value⟩ := member
      obtain ⟨⟨tokens, reads, takes⟩, others⟩ := List.forall_mem_cons.mp inside
      have named := (reads_renderText name).mark (c := ':') rfl reads
      have first {outer : List Enclosure} (before : List (String × Json)) (optional : Bool)
          (left : outer.length + (levels + 1) ≤ deepest) :
          Reading.Takes ⟨outer, .name before optional⟩ ([.quoted name] ++ .colon :: tokens)
            (.after (.object before name :: outer) value) :=
        .cons rfl (.cons rfl (takes (.object before name :: outer) false
          (by rw [List.length_cons]; omega)))
      cases rest with
      | nil =>
          refine ⟨_, named.mark rfl reads_nil, fun outer before optional left => ?_⟩
          rw [← List.reverse_cons]
          exact (first before optional left).append (.cons rfl .nothing)
      | cons next rest =>
          obtain ⟨tokens', reads', takes'⟩ := ih (List.cons_ne_nil next rest) others
          have both := named.mark (c := ',') rfl reads'
          have text : (renderText name ++ ':' :: value.render) ++ ',' ::
              (renderMembers (next :: rest) ++ ['}']) =
                renderMembers ((name, value) :: next :: rest) ++ ['}'] := by
            simp [renderMembers]
          rw [text] at both
          refine ⟨_, both, fun outer before optional left => ?_⟩
          have later := takes' outer ((name, value) :: before) false left
          rw [List.reverse_cons, List.append_assoc] at later
          exact (first before optional left).append (.cons rfl later)

theorem readable_object (inside : ∀ member ∈ members, Readable levels member.2.render member.2) :
    Readable (levels + 1) (Json.object members).render (.object members) := by
  have opens {outer : List Enclosure} (optional : Bool)
      (left : outer.length + (levels + 1) ≤ deepest) :
      Reading.step ⟨outer, .value optional⟩ .openObject = some ⟨outer, .name [] true⟩ :=
    if_pos (by omega)
  rw [render]
  by_cases empty : members = []
  · subst empty
    have reads := reads_nil.mark (c := '{') rfl (reads_nil.mark (c := '}') rfl reads_nil)
    exact ⟨_, reads, fun outer optional left => .cons (opens optional left) (.cons rfl .nothing)⟩
  · obtain ⟨tokens, reads, takes⟩ := exists_tokens_of_members empty inside
    exact ⟨_, reads_nil.mark (c := '{') rfl reads, fun outer optional left =>
      .cons (opens optional left) (takes outer [] true left)⟩

/-! ## Values -/

theorem Legible.readable (legible : Legible levels value) : Readable levels value.render value := by
  induction legible with
  | null => exact readable_word (by decide) (List.all_iff_forall_prop.mp rfl) rfl
  | bool value =>
      cases value with
      | true => exact readable_word (by decide) (List.all_iff_forall_prop.mp rfl) rfl
      | false => exact readable_word (by decide) (List.all_iff_forall_prop.mp rfl) rfl
  | natural fits => exact readable_natural fits
  | negative fits => exact readable_negative fits
  | text value => exact readable_renderText value
  | array _ ih => exact readable_array ih
  | object _ ih => exact readable_object ih

/-- A value is read back from its compact form. -/
theorem read?_write (legible : Legible deepest value) : read? value.write = some value := by
  obtain ⟨tokens, reads, takes⟩ := legible.readable
  have run := takes [] false (by simp)
  rw [Reading.Takes] at run
  simp [read?, write, tokens?_of_reads reads, run, Reading.after]

end MapReplica.Json
