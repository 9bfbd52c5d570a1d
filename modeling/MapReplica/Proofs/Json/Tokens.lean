import MapReplica.Json.Token
import MapReplica.Json.Writer
import MapReplica.Proofs.Number.Numeral

/-!
# Tokens of written values

What is written for a value is cut into the tokens of the value again. A quoted text ends with
its quote and a bracket with itself, but a word ends only with what follows it. So the tokens of
a text are those that were completed and the one that is pending at its end; the marks between
the parts of a value complete it.
-/

namespace MapReplica.Json

variable {place next last : Place} {text front back rest word letters read : List Char} {c : Char}
  {token : Token} {tokens found later pending : List Token}

/-! ## Reading in parts -/

/-- From a place a text leads to another place and completes tokens, here in their order. -/
inductive Place.Leads : Place → List Char → Place → List Token → Prop
  | nothing (place : Place) : place.Leads [] place []
  | further {place next last : Place} {c : Char} {rest : List Char} {found later : List Token}
      (step : place.step c = some (next, found)) (others : next.Leads rest last later) :
      place.Leads (c :: rest) last (found.reverse ++ later)

/-- A character may complete no token. -/
theorem Place.Leads.silent (next : Place) (step : place.step c = some (next, []))
    (others : next.Leads rest last found) : place.Leads (c :: rest) last found :=
  .further step others

theorem Place.Leads.append (first : place.Leads front next found)
    (second : next.Leads back last later) : place.Leads (front ++ back) last (found ++ later) := by
  induction first with
  | nothing place => exact second
  | further step _ ih =>
      rw [List.cons_append, List.append_assoc]
      exact .further step (ih second)

/-- The token that the end of a text would complete. Within quotes a text cannot end. -/
def Place.pending? : Place → Option (List Token)
  | .between => some []
  | .word letters => (wordToken? letters).map fun token => [token]
  | _ => none

/-- From a place a text is read as tokens, the last of which may still be pending at its end. -/
def Place.Reads (place : Place) (text : List Char) (tokens : List Token) : Prop :=
  ∃ last found pending, place.Leads text last found ∧ last.pending? = some pending ∧
    tokens = found ++ pending

/-- The machine keeps the tokens in reverse. -/
theorem Place.Leads.foldlM_step (leads : place.Leads text last found) (known : List Token) :
    text.foldlM
        (fun (place, read) c => do
          let (place, tokens) ← Place.step c place
          some (place, tokens ++ read))
        (place, known) = some (last, found.reverse ++ known) := by
  induction leads generalizing known with
  | nothing place => rfl
  | further step _ ih =>
      rw [List.foldlM_cons]
      simp only [step]
      exact (ih _).trans (by simp)

theorem tokens?_of_reads (reads : Place.between.Reads text tokens) :
    tokens? text = some tokens := by
  obtain ⟨last, found, pending, leads, waits, rfl⟩ := reads
  unfold tokens?
  rw [leads.foldlM_step]
  cases last with
  | between =>
      cases waits
      simp
  | word letters =>
      obtain ⟨token, spelt, rfl⟩ := Option.map_eq_some_iff.mp waits
      simp [spelt]
  | _ => cases waits

theorem reads_nil : Place.between.Reads [] [] :=
  ⟨.between, [], [], .nothing .between, rfl, rfl⟩

/-! ## Marks -/

theorem not_space_of_mark (mark : mark? c = some token) : isSpace c = false ∧ c ≠ '"' := by
  unfold mark? at mark
  split at mark
  case h_7 => cases mark
  all_goals exact ⟨by decide, by decide⟩

/-- A mark completes the token that is pending, and is one itself. -/
theorem step_mark (waits : place.pending? = some pending) (mark : mark? c = some token) :
    place.step c = some (.between, token :: pending.reverse) := by
  obtain ⟨noSpace, noQuote⟩ := not_space_of_mark mark
  have starts : fresh c = (.between, [token]) := by simp [fresh, noSpace, noQuote, mark]
  cases place with
  | between =>
      cases waits
      simp [Place.step, starts]
  | word letters =>
      obtain ⟨spelt, word, rfl⟩ := Option.map_eq_some_iff.mp waits
      simp [Place.step, starts, mark, word]
  | _ => cases waits

/-- Two texts with a mark between them are read one after the other. -/
theorem Place.Reads.mark (first : place.Reads front tokens) (mark : mark? c = some token)
    (second : Place.between.Reads back later) :
    place.Reads (front ++ c :: back) (tokens ++ token :: later) := by
  obtain ⟨middle, found, pending, leads, waits, rfl⟩ := first
  obtain ⟨last, found', pending', leads', waits', rfl⟩ := second
  exact ⟨last, _, pending', leads.append (.further (step_mark waits mark) leads'), waits', by simp⟩

/-! ## Words -/

/-- A character of words: no blank, no quote and no mark. -/
def IsLetter (c : Char) : Prop :=
  isSpace c = false ∧ c ≠ '"' ∧ mark? c = none

instance (c : Char) : Decidable (IsLetter c) :=
  inferInstanceAs (Decidable (_ ∧ _ ∧ _ = _))

theorem leads_word (inside : ∀ c ∈ word, IsLetter c) :
    (Place.word letters).Leads word (.word (word.reverse ++ letters)) [] := by
  induction word generalizing letters with
  | nil => exact .nothing (.word letters)
  | cons c rest ih =>
      obtain ⟨⟨noSpace, noQuote, noMark⟩, others⟩ := List.forall_mem_cons.mp inside
      rw [List.reverse_cons, List.append_assoc]
      exact .silent _ (by simp [Place.step, noSpace, noQuote, noMark]) (ih others)

/-- A word that spells a scalar is read as that, once it is at its end. -/
theorem reads_word {value : Json} (nonempty : word ≠ []) (inside : ∀ c ∈ word, IsLetter c)
    (spells : scalar? word = some value) : Place.between.Reads word [.scalar value] := by
  obtain ⟨c, rest, rfl⟩ := List.exists_cons_of_ne_nil nonempty
  obtain ⟨⟨noSpace, noQuote, noMark⟩, others⟩ := List.forall_mem_cons.mp inside
  have starts : Place.between.step c = some (.word [c], []) := by
    simp [Place.step, fresh, noSpace, noQuote, noMark]
  exact ⟨.word (rest.reverse ++ [c]), [], [.scalar value], .silent _ starts (leads_word others),
    by simp [Place.pending?, wordToken?, spells], rfl⟩

/-! ## Quoted texts -/

theorem hexDigit?_hexDigit {n : Nat} (small : n < 16) : hexDigit? (Number.hexDigit n) = some n := by
  decide +revert

/-- A character that is written by its number is read back by its number. -/
theorem leads_code (control : c.toNat < 0x20)
    (others : (Place.inside (c :: read)).Leads rest last found) :
    (Place.inside read).Leads (['\\', 'u', '0', '0', Number.hexDigit (c.toNat / 16),
      Number.hexDigit (c.toNat % 16)] ++ rest) last found := by
  have high := hexDigit?_hexDigit (n := c.toNat / 16) (by omega)
  have low := hexDigit?_hexDigit (n := c.toNat % 16) (by omega)
  have zero : hexDigit? '0' = some 0 := rfl
  have whole : c.toNat / 16 * 16 + c.toNat % 16 = c.toNat := by omega
  have scalar : Place.ofCode read c.toNat none = some (.inside (c :: read)) := by
    simp only [Place.ofCode]
    rw [if_neg (by omega), if_neg (by omega), Char.ofNat_toNat]
  refine .silent (.escape read) rfl ?_
  refine .silent (.code read none 4 0) rfl ?_
  refine .silent (.code read none 3 0) (by simp [Place.step, zero]) ?_
  refine .silent (.code read none 2 0) (by simp [Place.step, zero]) ?_
  refine .silent (.code read none 1 (c.toNat / 16)) (by simp [Place.step, high]) ?_
  exact .silent _ (by simp [Place.step, low, whole, scalar]) others

theorem leads_escape (letter : Char) (plain : letter ≠ 'u') (meant : escaped? letter = some c)
    (others : (Place.inside (c :: read)).Leads rest last found) :
    (Place.inside read).Leads (['\\', letter] ++ rest) last found :=
  .silent (.escape read) rfl (.silent _ (by simp [Place.step, plain, meant]) others)

/-- What is written for a character within quotes is read as that character. -/
theorem leads_renderChar (others : (Place.inside (c :: read)).Leads rest last found) :
    (Place.inside read).Leads (renderChar c ++ rest) last found := by
  unfold renderChar
  split
  case isTrue quote => exact leads_escape '"' (by decide) (congrArg some quote.symm) others
  split
  case isTrue slash => exact leads_escape '\\' (by decide) (congrArg some slash.symm) others
  split
  case isTrue feed => exact leads_escape 'n' (by decide) (feed ▸ rfl) others
  split
  case isTrue back => exact leads_escape 'r' (by decide) (back ▸ rfl) others
  split
  case isTrue tab => exact leads_escape 't' (by decide) (tab ▸ rfl) others
  split
  case isTrue backspace =>
    have same : c = Char.ofNat 8 := by rw [← backspace, Char.ofNat_toNat]
    exact leads_escape 'b' (by decide) (same ▸ rfl) others
  split
  case isTrue page =>
    have same : c = Char.ofNat 12 := by rw [← page, Char.ofNat_toNat]
    exact leads_escape 'f' (by decide) (same ▸ rfl) others
  split
  case isTrue control => exact leads_code control others
  case isFalse noQuote noSlash _ _ _ _ _ printed =>
    exact .silent _ (by simp [Place.step, noQuote, noSlash, printed]) others

theorem leads_inside : (Place.inside read).Leads (text.flatMap renderChar ++ ['"']) .between
    [.quoted (String.ofList (read.reverse ++ text))] := by
  induction text generalizing read with
  | nil =>
      have ends : (Place.inside read).step '"' =
          some (.between, [.quoted (String.ofList read.reverse)]) := by simp [Place.step]
      rw [List.append_nil]
      exact .further ends (.nothing .between)
  | cons c rest ih =>
      have others : (Place.inside (c :: read)).Leads _ _ _ := ih
      rw [List.reverse_cons, List.append_assoc, List.singleton_append] at others
      rw [List.flatMap_cons, List.append_assoc]
      exact leads_renderChar others

/-- What is written for a text is read as the text. -/
theorem reads_renderText (text : String) :
    Place.between.Reads (renderText text) [.quoted text] := by
  have leads : (Place.inside []).Leads _ .between [.quoted (String.ofList text.toList)] :=
    leads_inside
  rw [String.ofList_toList] at leads
  exact ⟨.between, [.quoted text], [], .silent _ rfl leads, rfl, rfl⟩

end MapReplica.Json
