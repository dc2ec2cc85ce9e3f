import AliceBridge.Lib.JsonText

/-! # What the parser returns

Every value the parser returns is nested no deeper than allowed, its numbers are
those a `serde_json::Number` holds, and something of the text was consumed
(`value_parsed`); more fuel changes nothing (`value_enough`). The maps
a value stands for (`normal`) are canonical, and a canonical value is its own. -/
namespace AliceBridge.Lib.JsonText
open AliceBridge.Lib.Utf8 AliceBridge.Lib.Words AliceBridge.Lib.Json

/-! ## Numbers of a value -/

/-- A `serde_json::Number`: an integer of 64 bits or a float. -/
def StoredNumber (n : Number) : Prop := CanonicalNumber n ∨ ∃ bits, n = .float bits

theorem numbersItems_iff {P : Number → Prop} {items : List Value} :
    NumbersItems P items ↔ ∀ item ∈ items, Numbers P item := by
  induction items with
  | nil => simp [NumbersItems]
  | cons item items ih => simp [NumbersItems, ih]

theorem numbersFields_iff {P : Number → Prop} {fields : List (Text × Value)} :
    NumbersFields P fields ↔ ∀ field ∈ fields, Numbers P field.2 := by
  induction fields with
  | nil => simp [NumbersFields]
  | cons field fields ih => simp [NumbersFields, ih]

mutual
/-- A value as the types of the printer allow it, without floats: numbers in their
ranges and the names of an object in ascending order. -/
def Canonical : Value → Prop
  | .number n => CanonicalNumber n
  | .array items => CanonicalItems items
  | .object fields => (fields.map Prod.fst).Pairwise (· < ·) ∧ CanonicalFields fields
  | _ => True

def CanonicalItems : List Value → Prop
  | [] => True
  | item :: items => Canonical item ∧ CanonicalItems items

def CanonicalFields : List (Text × Value) → Prop
  | [] => True
  | (_, value) :: fields => Canonical value ∧ CanonicalFields fields
end

theorem canonicalItems_iff {items : List Value} :
    CanonicalItems items ↔ ∀ item ∈ items, Canonical item := by
  induction items with
  | nil => simp [CanonicalItems]
  | cons item items ih => simp [CanonicalItems, ih]

theorem canonicalFields_iff {fields : List (Text × Value)} :
    CanonicalFields fields ↔ ∀ field ∈ fields, Canonical field.2 := by
  induction fields with
  | nil => simp [CanonicalFields]
  | cons field fields ih => simp [CanonicalFields, ih]

theorem nestingItems_le {items : List Value} {n : Nat} :
    nestingItems items ≤ n ↔ ∀ item ∈ items, nesting item ≤ n := by
  induction items with
  | nil => simp [nestingItems]
  | cons item items ih => simp [nestingItems, ih]

theorem nestingFields_le {fields : List (Text × Value)} {n : Nat} :
    nestingFields fields ≤ n ↔ ∀ field ∈ fields, nesting field.2 ≤ n := by
  induction fields with
  | nil => simp [nestingFields]
  | cons field fields ih => simp [nestingFields, ih]

mutual
/-- Numbers of both kinds are of the kind the two make. -/
theorem Numbers.and {P Q R : Number → Prop} (h : ∀ n, P n → Q n → R n) :
    ∀ v : Value, Numbers P v → Numbers Q v → Numbers R v
  | .null, _, _ => trivial
  | .bool _, _, _ => trivial
  | .number n, hp, hq => h n hp hq
  | .string _, _, _ => trivial
  | .array items, hp, hq => NumbersItems.and h items hp hq
  | .object fields, hp, hq => NumbersFields.and h fields hp hq

theorem NumbersItems.and {P Q R : Number → Prop} (h : ∀ n, P n → Q n → R n) :
    ∀ items : List Value, NumbersItems P items → NumbersItems Q items → NumbersItems R items
  | [], _, _ => trivial
  | item :: items, hp, hq =>
    ⟨Numbers.and h item hp.1 hq.1, NumbersItems.and h items hp.2 hq.2⟩

theorem NumbersFields.and {P Q R : Number → Prop} (h : ∀ n, P n → Q n → R n) :
    ∀ fields : List (Text × Value),
      NumbersFields P fields → NumbersFields Q fields → NumbersFields R fields
  | [], _, _ => trivial
  | (_, v) :: fields, hp, hq =>
    ⟨Numbers.and h v hp.1 hq.1, NumbersFields.and h fields hp.2 hq.2⟩
end

/-- A value without floats. -/
def FloatFree (v : Value) : Prop := Numbers (fun n => ∀ bits, n ≠ .float bits) v

theorem FloatFree.canonical {v : Value} (h : FloatFree v) (hstored : Numbers StoredNumber v) :
    Numbers CanonicalNumber v := by
  refine Numbers.and (fun n hfree hn => ?_) v h hstored
  rcases hn with hn | ⟨bits, rfl⟩
  · exact hn
  · exact absurd rfl (hfree bits)

/-! ## Maps -/

theorem mem_insertField {name : Text} {value : Value} {map : List (Text × Value)}
    {field : Text × Value} (h : field ∈ insertField name value map) :
    field = (name, value) ∨ field ∈ map := by
  induction map with
  | nil => exact .inl (List.mem_singleton.mp h)
  | cons first map ih =>
    unfold insertField at h
    split at h
    · rcases List.mem_cons.mp h with h | h
      · exact .inl h
      · exact .inr (List.mem_cons_of_mem _ h)
    · split at h
      · exact List.mem_cons.mp h
      · rcases List.mem_cons.mp h with rfl | h
        · exact .inr List.mem_cons_self
        · exact (ih h).imp id (List.mem_cons_of_mem _)

theorem insertField_ascending {name : Text} {value : Value} {map : List (Text × Value)}
    (h : (map.map Prod.fst).Pairwise (· < ·)) :
    ((insertField name value map).map Prod.fst).Pairwise (· < ·) := by
  induction map with
  | nil => simp [insertField]
  | cons first map ih =>
    obtain ⟨hfirst, hmap⟩ := List.pairwise_cons.mp h
    unfold insertField
    split
    next heq =>
      subst heq
      exact List.pairwise_cons.mpr ⟨hfirst, hmap⟩
    next hne =>
      split
      next hlt =>
        refine List.pairwise_cons.mpr ⟨fun other hother => ?_, h⟩
        rcases List.mem_cons.mp hother with rfl | hother
        · exact hlt
        · exact List.lt_trans hlt (hfirst other hother)
      next hge =>
        have hgt : first.1 < name :=
          (List.le_iff_lt_or_eq.mp (List.not_lt.mp hge)).resolve_right (Ne.symm hne)
        refine List.pairwise_cons.mpr ⟨fun other hother => ?_, ih hmap⟩
        obtain ⟨field, hfield, rfl⟩ := List.mem_map.mp hother
        rcases mem_insertField hfield with rfl | hfield
        · exact hgt
        · exact hfirst _ (List.mem_map_of_mem hfield)

theorem foldl_insertField {fields map : List (Text × Value)}
    (h : (map.map Prod.fst).Pairwise (· < ·)) :
    (((fields.foldl (fun map field => insertField field.1 field.2 map) map).map
        Prod.fst).Pairwise (· < ·)) ∧
      ∀ field ∈ fields.foldl (fun map field => insertField field.1 field.2 map) map,
        field ∈ fields ∨ field ∈ map := by
  induction fields generalizing map with
  | nil => exact ⟨h, fun field hfield => .inr hfield⟩
  | cons first fields ih =>
    obtain ⟨hascending, hmem⟩ := ih (@insertField_ascending _ first.2 map h)
    refine ⟨hascending, fun field hfield => ?_⟩
    rcases hmem field hfield with hfield | hfield
    · exact .inl (List.mem_cons_of_mem _ hfield)
    · rcases mem_insertField hfield with rfl | hfield
      · exact .inl List.mem_cons_self
      · exact .inr hfield

theorem collectFields_ascending (fields : List (Text × Value)) :
    ((collectFields fields).map Prod.fst).Pairwise (· < ·) :=
  (foldl_insertField (by simp)).1

theorem mem_collectFields {fields : List (Text × Value)} {field : Text × Value}
    (h : field ∈ collectFields fields) : field ∈ fields := by
  rcases (@foldl_insertField fields [] (by simp)).2 field h with h | h
  · exact h
  · cases h

theorem insertField_last {name : Text} {value : Value} {map : List (Text × Value)}
    (h : ∀ field ∈ map, field.1 < name) : insertField name value map = map ++ [(name, value)] := by
  induction map with
  | nil => rfl
  | cons field map ih =>
    rw [List.forall_mem_cons] at h
    have hne : name ≠ field.1 := fun heq => List.lt_irrefl _ (heq ▸ h.1)
    have hlt : ¬ name < field.1 := List.lt_asymm h.1
    rw [insertField, if_neg hne, if_neg hlt, ih h.2, List.cons_append]

/-- Fields in ascending order are collected as they stand. -/
theorem collectFields_of_ascending {fields : List (Text × Value)}
    (h : (fields.map Prod.fst).Pairwise (· < ·)) : collectFields fields = fields := by
  suffices hfold : ∀ map, ((map ++ fields).map Prod.fst).Pairwise (· < ·) →
      fields.foldl (fun map field => insertField field.1 field.2 map) map = map ++ fields from
    hfold [] h
  clear h
  induction fields with
  | nil => exact fun map _ => (List.append_nil map).symm
  | cons field fields ih =>
    intro map h
    have hbefore : ∀ earlier ∈ map, earlier.1 < field.1 := by
      intro earlier hmem
      rw [List.map_append, List.pairwise_append] at h
      exact h.2.2 _ (List.mem_map_of_mem hmem) _ (by simp)
    have hsplit : map ++ field :: fields = map ++ [field] ++ fields := by simp
    rw [List.foldl_cons, insertField_last hbefore, hsplit]
    exact ih _ (hsplit ▸ h)

mutual
/-- A value with numbers the printer allows is canonical as the maps it stands for. -/
theorem canonical_normal : ∀ v : Value, Numbers CanonicalNumber v → Canonical (normal v)
  | .null, _ => trivial
  | .bool _, _ => trivial
  | .number _, h => h
  | .string _, _ => trivial
  | .array items, h => canonicalItems_iff.mpr (canonical_normalItems items h)
  | .object fields, h =>
    ⟨collectFields_ascending _, canonicalFields_iff.mpr fun field hfield =>
      canonical_normalFields fields h field (mem_collectFields hfield)⟩

theorem canonical_normalItems : ∀ items : List Value, NumbersItems CanonicalNumber items →
    ∀ item ∈ normalItems items, Canonical item
  | [], _ => by simp [normalItems]
  | item :: items, h => by
    intro other hother
    rcases List.mem_cons.mp hother with rfl | hother
    · exact canonical_normal item h.1
    · exact canonical_normalItems items h.2 other hother

theorem canonical_normalFields : ∀ fields : List (Text × Value),
    NumbersFields CanonicalNumber fields → ∀ field ∈ normalFields fields, Canonical field.2
  | [], _ => by simp [normalFields]
  | (_, v) :: fields, h => by
    intro other hother
    rcases List.mem_cons.mp hother with rfl | hother
    · exact canonical_normal v h.1
    · exact canonical_normalFields fields h.2 other hother
end

mutual
/-- A canonical value is the maps it stands for. -/
theorem normal_of_canonical : ∀ v : Value, Canonical v → normal v = v
  | .null, _ => rfl
  | .bool _, _ => rfl
  | .number _, _ => rfl
  | .string _, _ => rfl
  | .array items, h => by rw [normal, normalItems_of_canonical items h]
  | .object fields, h => by
    rw [normal, normalFields_of_canonical fields h.2, collectFields_of_ascending h.1]

theorem normalItems_of_canonical : ∀ items : List Value, CanonicalItems items →
    normalItems items = items
  | [], _ => rfl
  | item :: items, h => by
    rw [normalItems, normal_of_canonical item h.1, normalItems_of_canonical items h.2]

theorem normalFields_of_canonical : ∀ fields : List (Text × Value), CanonicalFields fields →
    normalFields fields = fields
  | [], _ => rfl
  | (_, v) :: fields, h => by
    rw [normalFields, normal_of_canonical v h.1, normalFields_of_canonical fields h.2]
end

mutual
theorem numbers_of_canonical : ∀ v : Value, Canonical v → Numbers CanonicalNumber v
  | .null, _ => trivial
  | .bool _, _ => trivial
  | .number _, h => h
  | .string _, _ => trivial
  | .array items, h => numbersItems_of_canonical items h
  | .object fields, h => numbersFields_of_canonical fields h.2

theorem numbersItems_of_canonical : ∀ items : List Value, CanonicalItems items →
    NumbersItems CanonicalNumber items
  | [], _ => trivial
  | item :: items, h => ⟨numbers_of_canonical item h.1, numbersItems_of_canonical items h.2⟩

theorem numbersFields_of_canonical : ∀ fields : List (Text × Value), CanonicalFields fields →
    NumbersFields CanonicalNumber fields
  | [], _ => trivial
  | (_, v) :: fields, h => ⟨numbers_of_canonical v h.1, numbersFields_of_canonical fields h.2⟩
end

mutual
theorem nesting_normal : ∀ v : Value, nesting (normal v) ≤ nesting v
  | .null => Nat.le_refl _
  | .bool _ => Nat.le_refl _
  | .number _ => Nat.le_refl _
  | .string _ => Nat.le_refl _
  | .array items => Nat.succ_le_succ (nestingItems_le.mpr (nesting_normalItems items))
  | .object fields => Nat.succ_le_succ (nestingFields_le.mpr fun field hfield =>
      nesting_normalFields fields field (mem_collectFields hfield))

theorem nesting_normalItems : ∀ items : List Value,
    ∀ item ∈ normalItems items, nesting item ≤ nestingItems items
  | [] => by simp [normalItems]
  | item :: items => by
    intro other hother
    rcases List.mem_cons.mp hother with rfl | hother
    · exact (nesting_normal item).trans (Nat.le_max_left _ _)
    · exact (nesting_normalItems items other hother).trans (Nat.le_max_right _ _)

theorem nesting_normalFields : ∀ fields : List (Text × Value),
    ∀ field ∈ normalFields fields, nesting field.2 ≤ nestingFields fields
  | [] => by simp [normalFields]
  | (_, v) :: fields => by
    intro other hother
    rcases List.mem_cons.mp hother with rfl | hother
    · exact (nesting_normal v).trans (Nat.le_max_left _ _)
    · exact (nesting_normalFields fields other hother).trans (Nat.le_max_right _ _)
end

/-! ## What is consumed -/

/-- What follows is left alone by a function of the result. -/
theorem map_fst {α β : Type} {f : α → β} {result : Option (α × Text)} {b : β} {rest : Text}
    (h : (result.map fun p => (f p.1, p.2)) = some (b, rest)) :
    ∃ a, result = some (a, rest) ∧ f a = b := by
  obtain ⟨⟨a, _⟩, ha, heq⟩ := Option.map_eq_some_iff.mp h
  obtain ⟨hb, rfl⟩ := Prod.mk.inj heq
  exact ⟨a, ha, hb⟩

theorem skipBlanks_le (text : Text) : (skipBlanks text).length ≤ text.length :=
  List.length_dropWhile_le _ _

theorem skipBlanks_shorter {text rest : Text} {c : Char} (h : skipBlanks text = c :: rest) :
    rest.length < text.length := by
  have hle := skipBlanks_le text
  rw [h, List.length_cons] at hle
  omega

theorem stringTail_shorter {text s rest : Text} {skip : Nat}
    (h : stringTail skip text = some (s, rest)) : rest.length < text.length := by
  induction text generalizing skip s with
  | nil => cases skip <;> cases h
  | cons c text ih =>
    rw [List.length_cons]
    cases skip with
    | succ skip =>
      have hlt := ih (show stringTail skip text = some (s, rest) from h)
      omega
    | zero =>
      simp only [stringTail] at h
      split at h
      · obtain ⟨rfl, rfl⟩ := Prod.mk.inj (Option.some.inj h)
        exact Nat.lt_succ_self _
      · split at h
        · split at h
          · obtain ⟨_, htail, _⟩ := map_fst h
            have hlt := ih htail
            omega
          · cases h
        · split at h
          · cases h
          · obtain ⟨_, htail, _⟩ := map_fst h
            have hlt := ih htail
            omega

theorem keyword_le {letters text rest : Text} {v w : Value}
    (h : keyword letters v text = some (w, rest)) : w = v ∧ rest.length ≤ text.length := by
  unfold keyword at h
  split at h
  · obtain ⟨rfl, rfl⟩ := Prod.mk.inj (Option.some.inj h)
    exact ⟨rfl, by simp⟩
  · cases h

theorem fraction_le {text frac rest : Text} (h : fraction text = some (frac, rest)) :
    rest.length ≤ text.length := by
  unfold fraction at h
  split at h
  · simp only at h
    split at h
    · cases h
    · obtain ⟨_, rfl⟩ := Prod.mk.inj (Option.some.inj h)
      exact (List.length_dropWhile_le _ _).trans (Nat.le_succ _)
  · obtain ⟨_, rfl⟩ := Prod.mk.inj (Option.some.inj h)
    exact Nat.le_refl _

theorem exponent_le {text exp rest : Text} (h : exponent text = some (exp, rest)) :
    rest.length ≤ text.length := by
  have hsign : ∀ text : Text, (exponentSign text).2.length ≤ text.length := by
    intro text
    unfold exponentSign
    split <;> simp
  unfold exponent at h
  split at h
  · obtain ⟨_, rfl⟩ := Prod.mk.inj (Option.some.inj h)
    exact Nat.le_refl _
  · split at h
    · simp only at h
      split at h
      · cases h
      next tail _ _ =>
        obtain ⟨_, rfl⟩ := Prod.mk.inj (Option.some.inj h)
        exact ((List.length_dropWhile_le _ _).trans (hsign tail)).trans (Nat.le_succ _)
    · obtain ⟨_, rfl⟩ := Prod.mk.inj (Option.some.inj h)
      exact Nat.le_refl _

theorem smallInteger_canonical {negative : Bool} {n : Nat} {result : Number}
    (h : smallInteger negative n = some result) : CanonicalNumber result := by
  unfold smallInteger at h
  split at h
  · split at h
    next hrange =>
      obtain rfl := Option.some.inj h
      obtain ⟨hpos, hle⟩ := hrange
      have hle' : (n : Int) ≤ 2 ^ 63 := by exact_mod_cast hle
      exact ⟨by omega, by omega⟩
    · cases h
  · split at h
    next hle =>
      obtain rfl := Option.some.inj h
      exact hle
    · cases h

section Parser
variable {floats : Floats}

theorem number_parsed {text rest : Text} {n : Number} (h : number floats text = some (n, rest)) :
    rest.length < text.length ∧ StoredNumber n := by
  simp only [number, Option.bind_eq_bind] at h
  have hle : (if text.head? = some '-' then text.tail else text).length ≤ text.length := by
    split <;> simp
  generalize (if text.head? = some '-' then text.tail else text) = unsigned at h hle
  by_cases hdigits : integerDigits (unsigned.takeWhile Char.isDigit)
  · have hshort : (unsigned.dropWhile Char.isDigit).length < unsigned.length := by
      have hpos : 0 < (unsigned.takeWhile Char.isDigit).length := by
        refine List.length_pos_iff.mpr fun hnil => ?_
        simp [hnil, integerDigits] at hdigits
      have hsplit := congrArg List.length (List.takeWhile_append_dropWhile
        (p := Char.isDigit) (l := unsigned))
      rw [List.length_append] at hsplit
      omega
    simp only [hdigits, Bool.not_true, Bool.false_eq_true, if_false] at h
    obtain ⟨⟨frac, rest₁⟩, hfrac, h⟩ := Option.bind_eq_some_iff.mp h
    obtain ⟨⟨exp, rest₂⟩, hexp, h⟩ := Option.bind_eq_some_iff.mp h
    have hfrac := fraction_le hfrac
    have hexp := exponent_le hexp
    simp only at h hexp
    split at h
    next m hm =>
      obtain ⟨rfl, rfl⟩ := Prod.mk.inj (Option.some.inj h)
      refine ⟨by omega, .inl ?_⟩
      split at hm
      · exact smallInteger_canonical hm
      · cases hm
    next =>
      obtain ⟨bits, _, heq⟩ := Option.map_eq_some_iff.mp h
      obtain ⟨rfl, rfl⟩ := Prod.mk.inj heq
      exact ⟨by omega, .inr ⟨bits, rfl⟩⟩
  · simp [hdigits] at h

/-- What is known of a value read where this many levels may be opened. -/
structure Parsed (depth : Nat) (v : Value) : Prop where
  nesting : nesting v ≤ depth
  numbers : Numbers StoredNumber v

theorem Parsed.array {depth : Nat} {list : List Value} (hdepth : depth ≠ 0)
    (h : ∀ v ∈ list, Parsed (depth - 1) v) : Parsed depth (.array list) where
  nesting := by
    have hle := nestingItems_le.mpr fun v hv => (h v hv).nesting
    simp only [JsonText.nesting]
    omega
  numbers := numbersItems_iff.mpr fun v hv => (h v hv).numbers

theorem Parsed.object {depth : Nat} {list : List (Text × Value)} (hdepth : depth ≠ 0)
    (h : ∀ field ∈ list, Parsed (depth - 1) field.2) : Parsed depth (.object list) where
  nesting := by
    have hle := nestingFields_le.mpr fun field hfield => (h field hfield).nesting
    simp only [JsonText.nesting]
    omega
  numbers := numbersFields_iff.mpr fun field hfield => (h field hfield).numbers

/-- The results of the three functions with this much fuel. -/
structure Sound (floats : Floats) (fuel : Nat) : Prop where
  value : ∀ {depth text v rest}, value floats fuel depth text = some (v, rest) →
    rest.length < text.length ∧ Parsed depth v
  items : ∀ {depth text list rest}, items floats fuel depth text = some (list, rest) →
    rest.length < text.length ∧ ∀ v ∈ list, Parsed depth v
  fields : ∀ {depth text list rest}, fields floats fuel depth text = some (list, rest) →
    rest.length < text.length ∧ ∀ field ∈ list, Parsed depth field.2

theorem Sound.succ_value {fuel depth : Nat} {text rest : Text} {v : Value}
    (ih : Sound floats fuel) (h : JsonText.value floats (fuel + 1) depth text = some (v, rest)) :
    rest.length < text.length ∧ Parsed depth v := by
  have hword : ∀ {letters tail : Text} {w : Value}, keyword letters w tail = some (v, rest) →
      nesting w = 0 → Numbers StoredNumber w → tail.length < text.length →
      rest.length < text.length ∧ Parsed depth v := by
    intro letters tail w hkeyword hnesting hnumbers hlt
    obtain ⟨rfl, hle⟩ := keyword_le hkeyword
    exact ⟨by omega, by omega, hnumbers⟩
  simp only [JsonText.value] at h
  split at h
  · cases h
  next c tail hskip =>
    have hlt := skipBlanks_shorter hskip
    split at h
    · exact hword h rfl trivial hlt
    split at h
    · exact hword h rfl trivial hlt
    split at h
    · exact hword h rfl trivial hlt
    split at h
    · obtain ⟨s, hs, rfl⟩ := map_fst h
      have hshort := stringTail_shorter hs
      exact ⟨by omega, Nat.zero_le _, trivial⟩
    split at h
    · split at h
      · cases h
      next hdepth =>
        split at h
        · obtain ⟨rfl, rfl⟩ := Prod.mk.inj (Option.some.inj h)
          have hle := skipBlanks_le tail
          exact ⟨by rw [List.length_tail]; omega, .array hdepth (by simp)⟩
        · obtain ⟨list, hlist, rfl⟩ := map_fst h
          obtain ⟨hshort, hparsed⟩ := ih.items hlist
          exact ⟨by omega, .array hdepth hparsed⟩
    split at h
    · split at h
      · cases h
      next hdepth =>
        split at h
        · obtain ⟨rfl, rfl⟩ := Prod.mk.inj (Option.some.inj h)
          have hle := skipBlanks_le tail
          exact ⟨by rw [List.length_tail]; omega, .object hdepth (by simp)⟩
        · obtain ⟨list, hlist, rfl⟩ :=
            map_fst (f := fun fields => Value.object (collectFields fields)) h
          obtain ⟨hshort, hparsed⟩ := ih.fields hlist
          exact ⟨by omega, .object hdepth fun field hfield =>
            hparsed field (mem_collectFields hfield)⟩
    · obtain ⟨n, hn, rfl⟩ := map_fst h
      obtain ⟨hshort, hstored⟩ := number_parsed hn
      rw [List.length_cons] at hshort
      exact ⟨by omega, Nat.zero_le _, hstored⟩

theorem Sound.succ_items {fuel depth : Nat} {text rest : Text} {list : List Value}
    (ih : Sound floats fuel)
    (h : JsonText.items floats (fuel + 1) depth text = some (list, rest)) :
    rest.length < text.length ∧ ∀ v ∈ list, Parsed depth v := by
  simp only [JsonText.items] at h
  split at h
  · cases h
  next item after hitem =>
    obtain ⟨hshort, hparsed⟩ := ih.value hitem
    split at h
    · cases h
    next c tail hskip =>
      have hlt := skipBlanks_shorter hskip
      split at h
      · obtain ⟨rfl, rfl⟩ := Prod.mk.inj (Option.some.inj h)
        exact ⟨by omega, by simpa using hparsed⟩
      · split at h
        · obtain ⟨more, hmore, rfl⟩ := map_fst h
          obtain ⟨hshort', hall⟩ := ih.items hmore
          exact ⟨by omega, List.forall_mem_cons.mpr ⟨hparsed, hall⟩⟩
        · cases h

theorem Sound.succ_fields {fuel depth : Nat} {text rest : Text} {list : List (Text × Value)}
    (ih : Sound floats fuel)
    (h : JsonText.fields floats (fuel + 1) depth text = some (list, rest)) :
    rest.length < text.length ∧ ∀ field ∈ list, Parsed depth field.2 := by
  simp only [JsonText.fields] at h
  split at h
  · cases h
  next quote tail hquote =>
    have hlt := skipBlanks_shorter hquote
    split at h
    · split at h
      · cases h
      next name afterName hname =>
        have hshort := stringTail_shorter hname
        split at h
        · cases h
        next colon afterColon hcolon =>
          have hlt' := skipBlanks_shorter hcolon
          split at h
          · split at h
            · cases h
            next v afterValue hvalue =>
              obtain ⟨hshort', hparsed⟩ := ih.value hvalue
              split at h
              · cases h
              next c afterComma hskip =>
                have hlt'' := skipBlanks_shorter hskip
                split at h
                · obtain ⟨rfl, rfl⟩ := Prod.mk.inj (Option.some.inj h)
                  exact ⟨by omega, by simpa using hparsed⟩
                · split at h
                  · obtain ⟨more, hmore, rfl⟩ := map_fst h
                    obtain ⟨hshort'', hall⟩ := ih.fields hmore
                    exact ⟨by omega, List.forall_mem_cons.mpr ⟨hparsed, hall⟩⟩
                  · cases h
          · cases h
    · cases h

theorem sound (fuel : Nat) : Sound floats fuel := by
  induction fuel with
  | zero =>
    refine ⟨fun h => ?_, fun h => ?_, fun h => ?_⟩
    · simp [value] at h
    · simp [items] at h
    · simp [fields] at h
  | succ fuel ih => exact ⟨ih.succ_value, ih.succ_items, ih.succ_fields⟩

theorem value_parsed {fuel depth : Nat} {text rest : Text} {v : Value}
    (h : value floats fuel depth text = some (v, rest)) :
    rest.length < text.length ∧ Parsed depth v :=
  (sound fuel).value h

/-- A parsed value is nested no deeper than allowed and holds numbers only as they
are stored. -/
theorem parse_parsed {text : Text} {v : Value} (h : parse floats text = some v) :
    Parsed maxNesting v := by
  unfold parse at h
  split at h
  next hvalue =>
    split at h
    · obtain rfl := Option.some.inj h
      exact (value_parsed hvalue).2
    · cases h
  · cases h

/-! ## The fuel is enough -/

/-- One more unit of fuel changes nothing for the texts this fuel is enough for. -/
structure Enough (floats : Floats) (fuel : Nat) : Prop where
  value : ∀ {depth text}, 2 * text.length + 1 ≤ fuel →
    value floats (fuel + 1) depth text = value floats fuel depth text
  items : ∀ {depth text}, 2 * text.length + 2 ≤ fuel →
    items floats (fuel + 1) depth text = items floats fuel depth text
  fields : ∀ {depth text}, 2 * text.length + 2 ≤ fuel →
    fields floats (fuel + 1) depth text = fields floats fuel depth text

theorem Enough.succ_value {fuel depth : Nat} {text : Text} (ih : Enough floats fuel)
    (h : 2 * text.length + 1 ≤ fuel + 1) :
    JsonText.value floats (fuel + 2) depth text = JsonText.value floats (fuel + 1) depth text := by
  rw [JsonText.value, JsonText.value]
  split
  · rfl
  next c tail hskip =>
    have hlt := skipBlanks_shorter hskip
    rw [ih.items (by omega), ih.fields (by omega)]

theorem Enough.succ_items {fuel depth : Nat} {text : Text} (ih : Enough floats fuel)
    (h : 2 * text.length + 2 ≤ fuel + 1) :
    JsonText.items floats (fuel + 2) depth text = JsonText.items floats (fuel + 1) depth text := by
  rw [JsonText.items, JsonText.items, ih.value (by omega)]
  split
  · rfl
  next hitem =>
    have hshort := (value_parsed hitem).1
    split
    · rfl
    next hskip =>
      have hlt := skipBlanks_shorter hskip
      rw [ih.items (by omega)]

theorem Enough.succ_fields {fuel depth : Nat} {text : Text} (ih : Enough floats fuel)
    (h : 2 * text.length + 2 ≤ fuel + 1) :
    JsonText.fields floats (fuel + 2) depth text =
      JsonText.fields floats (fuel + 1) depth text := by
  rw [JsonText.fields, JsonText.fields]
  split
  · rfl
  next hquote =>
    have hlt := skipBlanks_shorter hquote
    split
    · split
      · rfl
      next hname =>
        have hshort := stringTail_shorter hname
        split
        · rfl
        next hcolon =>
          have hlt' := skipBlanks_shorter hcolon
          split
          · rw [ih.value (by omega)]
            split
            · rfl
            next hvalue =>
              have hshort' := (value_parsed hvalue).1
              split
              · rfl
              next hskip =>
                have hlt'' := skipBlanks_shorter hskip
                rw [ih.fields (by omega)]
          · rfl
    · rfl

theorem enough (fuel : Nat) : Enough floats fuel := by
  induction fuel with
  | zero =>
    refine ⟨fun h => ?_, fun h => ?_, fun h => ?_⟩
    · omega
    · omega
    · omega
  | succ fuel ih => exact ⟨ih.succ_value, ih.succ_items, ih.succ_fields⟩

/-- The fuel `parse` gives is enough. -/
theorem value_enough {fuel depth : Nat} {text : Text} (h : 2 * text.length + 1 ≤ fuel) :
    value floats fuel depth text = value floats (2 * text.length + 1) depth text := by
  induction fuel, h using Nat.le_induction with
  | base => rfl
  | succ fuel hle ih => exact ((enough fuel).value hle).trans ih

/-! ## A printed value on its line -/

theorem mem_commas {texts : List Text} {c : Char} (h : c ∈ commas texts) :
    c = ',' ∨ ∃ text ∈ texts, c ∈ text := by
  induction texts with
  | nil => cases h
  | cons text texts ih =>
    cases texts with
    | nil => exact .inr ⟨text, List.mem_singleton_self _, h⟩
    | cons other texts =>
      rw [commas_cons (by simp), List.mem_append, List.mem_cons] at h
      rcases h with h | rfl | h
      · exact .inr ⟨text, List.mem_cons_self, h⟩
      · exact .inl rfl
      · exact (ih h).imp id fun ⟨t, ht, hc⟩ => ⟨t, List.mem_cons_of_mem _ ht, hc⟩

/-- A character a printed text may hold; control characters are escaped. -/
def Printable (c : Char) : Prop := 32 ≤ c.toNat

instance : DecidablePred Printable := fun c => inferInstanceAs (Decidable (32 ≤ c.toNat))

theorem escape_printable (c : Char) : ∀ d ∈ escape c, Printable d := by
  have hletters : ∀ p ∈ escapeLetters, 32 ≤ p.2.toNat := by decide
  have hdigits : ∀ n : Fin 16, 32 ≤ (hexDigit n.val).toNat := by decide
  unfold escape
  split
  next letter h =>
    obtain ⟨before, after, htable, _⟩ := List.lookup_eq_some_iff.mp h
    have hletter : 32 ≤ letter.toNat := hletters (c, letter) (htable ▸ by simp)
    intro d hd
    simp only [List.mem_cons, List.not_mem_nil, or_false] at hd
    rcases hd with rfl | rfl
    · decide
    · exact hletter
  next h =>
    split
    next hlt =>
      have hhigh := hdigits ⟨c.toNat / 16, by omega⟩
      have hlow := hdigits ⟨c.toNat % 16, by omega⟩
      intro d hd
      simp only [List.mem_cons, List.not_mem_nil, or_false] at hd
      rcases hd with rfl | rfl | rfl | rfl | rfl | rfl
      · decide
      · decide
      · decide
      · decide
      · exact hhigh
      · exact hlow
    next hge =>
      intro d hd
      obtain rfl := List.mem_singleton.mp hd
      exact Nat.le_of_not_lt hge

theorem printString_printable (s : Text) : ∀ c ∈ printString s, Printable c := by
  intro c hc
  simp only [printString, List.mem_cons, List.mem_append, List.mem_flatMap,
    List.not_mem_nil, or_false, List.cons_append] at hc
  rcases hc with rfl | ⟨d, _, hd⟩ | rfl
  · decide
  · exact escape_printable d c hd
  · decide

theorem decimal_printable (n : Nat) : ∀ c ∈ decimal n, Printable c := by
  intro c hc
  have hdigit := decimal_digits n c hc
  simp only [Char.isDigit, Bool.and_eq_true, decide_eq_true_eq] at hdigit
  have hle : '0'.toNat ≤ c.toNat := hdigit.1
  exact Nat.le_trans (by decide) hle

mutual
theorem print_printable : ∀ v : Value, Canonical v → ∀ c ∈ print floats v, Printable c
  | .null, _ => by simp [print, Printable]
  | .bool true, _ => by simp [print, Printable]
  | .bool false, _ => by simp [print, Printable]
  | .number (.posInt n), _ => decimal_printable n
  | .number (.negInt n), h => by
    have hneg : n < 0 := h.1
    intro c hc
    rw [print, printNumber, if_pos hneg] at hc
    rcases List.mem_cons.mp hc with rfl | hc
    · decide
    · exact decimal_printable _ c hc
  | .number (.float _), h => h.elim
  | .string s, _ => printString_printable s
  | .array items, h => by
    intro c hc
    simp only [print, List.cons_append, List.mem_cons, List.mem_append, List.not_mem_nil,
      or_false] at hc
    rcases hc with rfl | hc | rfl
    · decide
    · rcases mem_commas hc with rfl | ⟨text, htext, hc⟩
      · decide
      · exact printItems_printable items h text htext c hc
    · decide
  | .object fields, h => by
    intro c hc
    simp only [print, List.cons_append, List.mem_cons, List.mem_append, List.not_mem_nil,
      or_false] at hc
    rcases hc with rfl | hc | rfl
    · decide
    · rcases mem_commas hc with rfl | ⟨text, htext, hc⟩
      · decide
      · exact printFields_printable fields h.2 text htext c hc
    · decide

theorem printItems_printable : ∀ items : List Value, CanonicalItems items →
    ∀ text ∈ printItems floats items, ∀ c ∈ text, Printable c
  | [], _ => by simp [printItems]
  | item :: items, h => by
    intro text htext
    rcases List.mem_cons.mp htext with rfl | htext
    · exact print_printable item h.1
    · exact printItems_printable items h.2 text htext

theorem printFields_printable : ∀ fields : List (Text × Value), CanonicalFields fields →
    ∀ text ∈ printFields floats fields, ∀ c ∈ text, Printable c
  | [], _ => by simp [printFields]
  | (name, v) :: fields, h => by
    intro text htext c hc
    rcases List.mem_cons.mp htext with rfl | htext
    · rcases List.mem_append.mp hc with hc | hc
      · exact printString_printable name c hc
      · rcases List.mem_cons.mp hc with rfl | hc
        · decide
        · exact print_printable v h.1 c hc
    · exact printFields_printable fields h.2 text htext c hc
end

end Parser

end AliceBridge.Lib.JsonText
