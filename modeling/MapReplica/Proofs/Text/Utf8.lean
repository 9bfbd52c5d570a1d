import MapReplica.Text.Utf8

/-!
# Text written as UTF-8 reads back

The octets of a text are UTF-8 and spell that text, and no other octets spell it. One
character is taken off the front of the octets at a time, by the number of its octets.
-/

namespace MapReplica.Utf8

theorem toNat_lt (c : Char) : c.toNat < 0x110000 ∧ (c.toNat < 0xD800 ∨ 0xDFFF < c.toNat) := by
  have valid : c.toNat.isValidChar := c.valid
  unfold Nat.isValidChar at valid
  omega

theorem toNat_ofNat {n : Nat} (small : n < 256) : (UInt8.ofNat n).toNat = n := by
  simp only [UInt8.toNat_ofNat']
  omega

/-- An octet below 128 is a character by itself. -/
theorem places_single {octet : UInt8} (small : octet.toNat < 0x80) (rest : Bytes) :
    places .between (octet :: rest) = some (Char.ofNat octet.toNat) :: places .between rest := by
  simp [places, begin, small]

/-- An octet that starts a longer character leaves the reading inside of it. -/
theorem places_first {octet : UInt8} {low high follow : Nat} (large : ¬ octet.toNat < 0x80)
    (lead : leads octet = some (low, high, follow)) (rest : Bytes) :
    places .between (octet :: rest) =
      places (.inside (octet.toNat % (if follow == 1 then 32 else if follow == 2 then 16 else 8))
        low high (follow - 1)) rest := by
  simp [places, begin, large, lead]

/-- An octet that is owed goes on with the character. -/
theorem places_middle {value low high owed : Nat} {octet : UInt8}
    (fits : within low high octet = true) (rest : Bytes) :
    places (.inside value low high (owed + 1)) (octet :: rest) =
      places (.inside (value * 64 + payload octet) 0x80 0xBF owed) rest := by
  simp [places, fits, resume]

/-- The last octet that is owed completes the character. -/
theorem places_last {value low high : Nat} {octet : UInt8} (fits : within low high octet = true)
    (rest : Bytes) :
    places (.inside value low high 0) (octet :: rest) =
      some (Char.ofNat (value * 64 + payload octet)) :: places .between rest := by
  simp [places, fits, resume]

theorem within_ofNat {low high n : Nat} (small : n < 256) (least : low ≤ n) (greatest : n ≤ high) :
    within low high (UInt8.ofNat n) = true := by
  simp [within, toNat_ofNat small, least, greatest]

theorem places_pair {n : Nat} (least : 0x80 ≤ n) (most : n < 0x800) (rest : Bytes) :
    places .between (UInt8.ofNat (0xC0 + n / 64) :: UInt8.ofNat (0x80 + n % 64) :: rest) =
      some (Char.ofNat n) :: places .between rest := by
  have first := toNat_ofNat (n := 0xC0 + n / 64) (by omega)
  have last := toNat_ofNat (n := 0x80 + n % 64) (by omega)
  have lead : leads (UInt8.ofNat (0xC0 + n / 64)) = some (0x80, 0xBF, 1) := by
    simp [leads]
    omega
  have value : (0xC0 + n / 64) % 32 * 64 + (0x80 + n % 64) % 64 = n := by omega
  rw [places_first (by omega) lead, places_last (within_ofNat (by omega) (by omega) (by omega)),
    payload, first, last]
  exact congrArg (fun m => some (Char.ofNat m) :: places .between rest) value

/-- The bounds of the second octet shut out shorter characters and the gap of the surrogates. -/
theorem places_triple {n : Nat} (least : 0x800 ≤ n) (most : n < 0x10000)
    (scalar : n < 0xD800 ∨ 0xDFFF < n) (rest : Bytes) :
    places .between
        (UInt8.ofNat (0xE0 + n / 4096) :: UInt8.ofNat (0x80 + n / 64 % 64) ::
          UInt8.ofNat (0x80 + n % 64) :: rest) =
      some (Char.ofNat n) :: places .between rest := by
  have first := toNat_ofNat (n := 0xE0 + n / 4096) (by omega)
  have middle := toNat_ofNat (n := 0x80 + n / 64 % 64) (by omega)
  have last := toNat_ofNat (n := 0x80 + n % 64) (by omega)
  obtain ⟨low, high, lead, fits⟩ :
      ∃ low high, leads (UInt8.ofNat (0xE0 + n / 4096)) = some (low, high, 2) ∧
        within low high (UInt8.ofNat (0x80 + n / 64 % 64)) = true := by
    by_cases shortest : n / 4096 = 0
    · exact ⟨0xA0, 0xBF, by simp [leads, shortest],
        within_ofNat (by omega) (by omega) (by omega)⟩
    by_cases surrogate : n / 4096 = 13
    · exact ⟨0x80, 0x9F, by simp [leads, surrogate],
        within_ofNat (by omega) (by omega) (by omega)⟩
    refine ⟨0x80, 0xBF, ?_, within_ofNat (by omega) (by omega) (by omega)⟩
    rw [leads, first]
    grind
  have value :
      ((0xE0 + n / 4096) % 16 * 64 + (0x80 + n / 64 % 64) % 64) * 64 +
        (0x80 + n % 64) % 64 = n := by
    omega
  rw [places_first (by omega) lead, places_middle fits,
    places_last (within_ofNat (by omega) (by omega) (by omega)), payload, payload, first, middle,
    last]
  exact congrArg (fun m => some (Char.ofNat m) :: places .between rest) value

theorem places_quadruple {n : Nat} (least : 0x10000 ≤ n) (most : n < 0x110000) (rest : Bytes) :
    places .between
        (UInt8.ofNat (0xF0 + n / 262144) :: UInt8.ofNat (0x80 + n / 4096 % 64) ::
          UInt8.ofNat (0x80 + n / 64 % 64) :: UInt8.ofNat (0x80 + n % 64) :: rest) =
      some (Char.ofNat n) :: places .between rest := by
  have first := toNat_ofNat (n := 0xF0 + n / 262144) (by omega)
  have second := toNat_ofNat (n := 0x80 + n / 4096 % 64) (by omega)
  have middle := toNat_ofNat (n := 0x80 + n / 64 % 64) (by omega)
  have last := toNat_ofNat (n := 0x80 + n % 64) (by omega)
  obtain ⟨low, high, lead, fits⟩ :
      ∃ low high, leads (UInt8.ofNat (0xF0 + n / 262144)) = some (low, high, 3) ∧
        within low high (UInt8.ofNat (0x80 + n / 4096 % 64)) = true := by
    by_cases shortest : n / 262144 = 0
    · exact ⟨0x90, 0xBF, by simp [leads, shortest],
        within_ofNat (by omega) (by omega) (by omega)⟩
    by_cases greatest : n / 262144 = 4
    · exact ⟨0x80, 0x8F, by simp [leads, greatest],
        within_ofNat (by omega) (by omega) (by omega)⟩
    refine ⟨0x80, 0xBF, ?_, within_ofNat (by omega) (by omega) (by omega)⟩
    rw [leads, first]
    grind
  have value :
      (((0xF0 + n / 262144) % 8 * 64 + (0x80 + n / 4096 % 64) % 64) * 64 +
        (0x80 + n / 64 % 64) % 64) * 64 + (0x80 + n % 64) % 64 = n := by
    omega
  rw [places_first (by omega) lead, places_middle fits,
    places_middle (within_ofNat (by omega) (by omega) (by omega)),
    places_last (within_ofNat (by omega) (by omega) (by omega)), payload, payload, payload, first,
    second, middle, last]
  exact congrArg (fun m => some (Char.ofNat m) :: places .between rest) value

/-- The octets of a character are read as this character, whatever follows. -/
theorem places_encodeChar (c : Char) (rest : Bytes) :
    places .between (encodeChar c ++ rest) = some c :: places .between rest := by
  obtain ⟨most, scalar⟩ := toNat_lt c
  have back : Char.ofNat c.toNat = c := Char.ofNat_toNat c
  simp only [encodeChar]
  split
  case isTrue one =>
    rw [List.singleton_append, places_single (by rw [toNat_ofNat (by omega)]; exact one),
      toNat_ofNat (by omega), back]
  case isFalse one =>
    split
    case isTrue two =>
      rw [List.cons_append, List.singleton_append, places_pair (by omega) two, back]
    case isFalse two =>
      split
      case isTrue three =>
        rw [List.cons_append, List.cons_append, List.singleton_append,
          places_triple (by omega) three scalar, back]
      case isFalse three =>
        rw [List.cons_append, List.cons_append, List.cons_append, List.singleton_append,
          places_quadruple (by omega) most, back]

theorem places_encodeChars (text : List Char) :
    places .between (encodeChars text) = text.map some := by
  induction text with
  | nil => rfl
  | cons c rest ih =>
      have step := places_encodeChar c (encodeChars rest)
      rw [ih] at step
      simpa [encodeChars] using step

/-- What was written as UTF-8 is read as the same text. -/
theorem decode?_encodeChars (text : List Char) :
    decode? (encodeChars text) = some (String.ofList text) := by
  have whole : (text.map some).mapM id = some text := by
    induction text with
    | nil => rfl
    | cons c rest ih => simp [ih]
  rw [decode?, places_encodeChars, whole]
  rfl

/-! ## Octets that read as text -/

/-- The characters of octets that are UTF-8 from where the reading stands. -/
def Reads (stand : Stand) (octets : Bytes) (text : List Char) : Prop :=
  places stand octets = text.map some

theorem places_eq_of_mapM {found : List (Option Char)} {text : List Char}
    (whole : found.mapM id = some text) : found = text.map some := by
  induction found generalizing text with
  | nil =>
      cases whole
      rfl
  | cons place rest ih =>
      cases place with
      | none => simp at whole
      | some c =>
          have front : ((rest.mapM id).bind fun later => some (c :: later)) = some text := by
            simpa using whole
          obtain ⟨later, hlater, same⟩ := Option.bind_eq_some_iff.mp front
          cases same
          rw [ih hlater]
          rfl

/-- Inside of a character the next octet is one that continues it. -/
theorem of_reads_inside {value low high owed : Nat} {octets : Bytes} {text : List Char}
    (reads : Reads (.inside value low high owed) octets text) :
    ∃ octet rest, octets = octet :: rest ∧ low ≤ octet.toNat ∧ octet.toNat ≤ high ∧
      match owed with
      | 0 => ∃ later, text = Char.ofNat (value * 64 + payload octet) :: later ∧
          Reads .between rest later
      | owed + 1 => Reads (.inside (value * 64 + payload octet) 0x80 0xBF owed) rest text := by
  unfold Reads at reads
  cases octets with
  | nil =>
      cases text with
      | nil => simp [places] at reads
      | cons c later => simp [places] at reads
  | cons octet rest =>
      rw [places] at reads
      split at reads
      case isFalse =>
        cases text with
        | nil => simp at reads
        | cons c later => simp at reads
      case isTrue fits =>
        obtain ⟨least, greatest⟩ : low ≤ octet.toNat ∧ octet.toNat ≤ high := by
          simpa [within] using fits
        refine ⟨octet, rest, rfl, least, greatest, ?_⟩
        cases owed with
        | zero =>
            cases text with
            | nil => simp [resume] at reads
            | cons c later =>
                obtain ⟨rfl, hlater⟩ : Char.ofNat (value * 64 + payload octet) = c ∧
                    places .between rest = later.map some := by simpa [resume] using reads
                exact ⟨later, rfl, hlater⟩
        | succ owed => simpa [resume, Reads] using reads

/-- The first octets of longer characters, with the second ones that they admit. -/
theorem of_leads {octet : UInt8} {low high follow : Nat}
    (lead : leads octet = some (low, high, follow)) :
    (follow = 1 ∧ 0xC2 ≤ octet.toNat ∧ octet.toNat ≤ 0xDF ∧ low = 0x80 ∧ high = 0xBF) ∨
      (follow = 2 ∧ 0xE0 ≤ octet.toNat ∧ octet.toNat ≤ 0xEF ∧ 0x80 ≤ low ∧ high ≤ 0xBF ∧
        (octet.toNat = 0xE0 → 0xA0 ≤ low) ∧ (octet.toNat = 0xED → high ≤ 0x9F)) ∨
      (follow = 3 ∧ 0xF0 ≤ octet.toNat ∧ octet.toNat ≤ 0xF4 ∧ 0x80 ≤ low ∧ high ≤ 0xBF ∧
        (octet.toNat = 0xF0 → 0x90 ≤ low) ∧ (octet.toNat = 0xF4 → high ≤ 0x8F)) := by
  simp only [leads, Bool.and_eq_true, decide_eq_true_eq, beq_iff_eq] at lead
  repeat' split at lead
  all_goals cases lead <;> omega

theorem toNat_ofNat_scalar {n : Nat} (scalar : n < 0xD800 ∨ 0xDFFF < n) (most : n < 0x110000) :
    (Char.ofNat n).toNat = n := by
  have valid : n.isValidChar := by
    unfold Nat.isValidChar
    omega
  rw [Char.ofNat, dif_pos valid]
  rfl

theorem ofNat_eq (octet : UInt8) {n : Nat} (same : n = octet.toNat) : UInt8.ofNat n = octet := by
  rw [same, UInt8.ofNat_toNat]

section Encodings

variable {first second third last : UInt8}

theorem encodeChar_single (small : first.toNat < 0x80) :
    encodeChar (Char.ofNat first.toNat) = [first] := by
  have value : (Char.ofNat first.toNat).toNat = first.toNat :=
    toNat_ofNat_scalar (by omega) (by omega)
  simp only [encodeChar, value, small, if_true, UInt8.ofNat_toNat]

theorem encodeChar_pair (least : 0xC2 ≤ first.toNat) (most : first.toNat ≤ 0xDF)
    (low : 0x80 ≤ last.toNat) (high : last.toNat ≤ 0xBF) :
    encodeChar (Char.ofNat (first.toNat % 32 * 64 + payload last)) = [first, last] := by
  obtain ⟨n, number⟩ : ∃ n, n = first.toNat % 32 * 64 + last.toNat % 64 := ⟨_, rfl⟩
  have value : (Char.ofNat n).toNat = n := toNat_ofNat_scalar (by omega) (by omega)
  rw [payload, ← number]
  simp only [encodeChar, value]
  rw [if_neg (by omega), if_pos (by omega), ofNat_eq first (by omega), ofNat_eq last (by omega)]

/-- The bounds of the second octet keep out shorter characters and the gap of the surrogates. -/
theorem encodeChar_triple (least : 0xE0 ≤ first.toNat) (most : first.toNat ≤ 0xEF)
    (low : 0x80 ≤ second.toNat) (high : second.toNat ≤ 0xBF)
    (shortest : first.toNat = 0xE0 → 0xA0 ≤ second.toNat)
    (surrogate : first.toNat = 0xED → second.toNat ≤ 0x9F)
    (least' : 0x80 ≤ last.toNat) (most' : last.toNat ≤ 0xBF) :
    encodeChar (Char.ofNat ((first.toNat % 16 * 64 + payload second) * 64 + payload last)) =
      [first, second, last] := by
  obtain ⟨n, number⟩ : ∃ n, n = (first.toNat % 16 * 64 + second.toNat % 64) * 64 +
      last.toNat % 64 := ⟨_, rfl⟩
  have value : (Char.ofNat n).toNat = n := toNat_ofNat_scalar (by omega) (by omega)
  rw [payload, payload, ← number]
  simp only [encodeChar, value]
  rw [if_neg (by omega), if_neg (by omega), if_pos (by omega), ofNat_eq first (by omega),
    ofNat_eq second (by omega), ofNat_eq last (by omega)]

theorem encodeChar_quadruple (least : 0xF0 ≤ first.toNat) (most : first.toNat ≤ 0xF4)
    (low : 0x80 ≤ second.toNat) (high : second.toNat ≤ 0xBF)
    (shortest : first.toNat = 0xF0 → 0x90 ≤ second.toNat)
    (greatest : first.toNat = 0xF4 → second.toNat ≤ 0x8F)
    (least' : 0x80 ≤ third.toNat) (most' : third.toNat ≤ 0xBF)
    (least'' : 0x80 ≤ last.toNat) (most'' : last.toNat ≤ 0xBF) :
    encodeChar (Char.ofNat (((first.toNat % 8 * 64 + payload second) * 64 + payload third) * 64 +
      payload last)) = [first, second, third, last] := by
  obtain ⟨n, number⟩ : ∃ n, n = ((first.toNat % 8 * 64 + second.toNat % 64) * 64 +
      third.toNat % 64) * 64 + last.toNat % 64 := ⟨_, rfl⟩
  have value : (Char.ofNat n).toNat = n := toNat_ofNat_scalar (by omega) (by omega)
  rw [payload, payload, payload, ← number]
  simp only [encodeChar, value]
  rw [if_neg (by omega), if_neg (by omega), if_neg (by omega), ofNat_eq first (by omega),
    ofNat_eq second (by omega), ofNat_eq third (by omega), ofNat_eq last (by omega)]

end Encodings

/-- Octets that read as text begin with the octets of its first character. -/
theorem of_reads_between {octet : UInt8} {rest : Bytes} {text : List Char}
    (reads : Reads .between (octet :: rest) text) :
    ∃ c later back, text = c :: later ∧ octet :: rest = encodeChar c ++ back ∧
      Reads .between back later := by
  by_cases small : octet.toNat < 0x80
  · rw [Reads, places_single small] at reads
    cases text with
    | nil => cases reads
    | cons c later =>
        obtain ⟨rfl, back⟩ : Char.ofNat octet.toNat = c ∧
            places .between rest = later.map some := by simpa using reads
        exact ⟨_, later, rest, rfl, by rw [encodeChar_single small]; rfl, back⟩
  · cases lead : leads octet with
    | none =>
        cases text <;> simp [Reads, places, begin, small, lead] at reads
    | some bounds =>
        obtain ⟨low, high, follow⟩ := bounds
        rw [Reads, places_first small lead] at reads
        rcases of_leads lead with ⟨rfl, least, most, rfl, rfl⟩ |
          ⟨rfl, least, most, above, below, shortest, surrogate⟩ |
          ⟨rfl, least, most, above, below, shortest, greatest⟩
        · obtain ⟨last, back, rfl, low, high, later, rfl, hlater⟩ := of_reads_inside reads
          refine ⟨_, later, back, rfl, ?_, hlater⟩
          exact congrArg (· ++ back) (encodeChar_pair least most low high).symm
        · obtain ⟨second, back, rfl, low, high, reads⟩ := of_reads_inside reads
          obtain ⟨last, back, rfl, low', high', later, rfl, hlater⟩ := of_reads_inside reads
          refine ⟨_, later, back, rfl, ?_, hlater⟩
          exact congrArg (· ++ back) (encodeChar_triple least most (by omega) (by omega)
            (by omega) (by omega) low' high').symm
        · obtain ⟨second, back, rfl, low, high, reads⟩ := of_reads_inside reads
          obtain ⟨third, back, rfl, low', high', reads⟩ := of_reads_inside reads
          obtain ⟨last, back, rfl, low'', high'', later, rfl, hlater⟩ := of_reads_inside reads
          refine ⟨_, later, back, rfl, ?_, hlater⟩
          exact congrArg (· ++ back) (encodeChar_quadruple least most (by omega) (by omega)
            (by omega) (by omega) low' high' low'' high'').symm

theorem encodeChar_ne_nil (c : Char) : encodeChar c ≠ [] := by
  simp only [encodeChar]
  repeat' split
  all_goals simp

/-- Octets that read as text are the octets of this text. -/
theorem encodeChars_of_reads {octets : Bytes} {text : List Char}
    (reads : Reads .between octets text) : encodeChars text = octets := by
  induction length : octets.length using Nat.strongRecOn generalizing octets text with
  | _ size ih =>
      cases octets with
      | nil =>
          cases text with
          | nil => rfl
          | cons c later => cases reads
      | cons octet rest =>
          obtain ⟨c, later, back, rfl, split, hlater⟩ := of_reads_between reads
          have shorter : back.length < size := by
            have longer := List.length_pos_iff.mpr (encodeChar_ne_nil c)
            rw [← length, split, List.length_append]
            omega
          rw [split, ← ih back.length shorter hlater rfl]
          rfl

/-- What is read as a text was written as UTF-8. -/
theorem encode_of_decode? {octets : Bytes} {text : String} (decoded : decode? octets = some text) :
    encode text = octets := by
  obtain ⟨chars, whole, rfl⟩ := Option.map_eq_some_iff.mp decoded
  rw [encode, String.toList_ofList]
  exact encodeChars_of_reads (places_eq_of_mapM whole)

end MapReplica.Utf8
