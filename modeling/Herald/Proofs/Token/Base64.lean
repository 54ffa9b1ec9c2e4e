import Herald.Token.Base64

/-!
Octets have one text in Base64 alone: what is decoded is exactly what encoding the outcome writes.
-/

namespace Herald.Token.Base64

/-! Symbols. -/

theorem symbolValue?_symbol : ∀ value < 64, symbolValue? (symbol value) = some value := by decide

theorem symbol_of_symbolValue? : ∀ number < 256, ∀ value ∈ symbolValue? (UInt8.ofNat number),
    value < 64 ∧ UInt8.ofNat number = symbol value := by
  decide +kernel

theorem symbolValue?_eq_some_iff {octet : UInt8} {value : Nat} :
    symbolValue? octet = some value ↔ value < 64 ∧ octet = symbol value := by
  constructor
  · intro hvalue
    have hsymbol := symbol_of_symbolValue? octet.toNat octet.toNat_lt
    rw [UInt8.ofNat_toNat] at hsymbol
    exact hsymbol value hvalue
  · rintro ⟨hvalue, rfl⟩
    exact symbolValue?_symbol value hvalue

/-- The symbols are those of the values. -/
structure Spells (given : List Nat) (symbols : List UInt8) : Prop where
  small : ∀ value ∈ given, value < 64
  symbols_eq : symbols = given.map symbol

theorem spells_nil : Spells [] [] := ⟨nofun, rfl⟩

theorem spells_cons_iff {value : Nat} {given : List Nat} {octet : UInt8} {symbols : List UInt8} :
    Spells (value :: given) (octet :: symbols) ↔
      symbolValue? octet = some value ∧ Spells given symbols := by
  rw [symbolValue?_eq_some_iff]
  constructor
  · rintro ⟨hsmall, hsymbols⟩
    obtain ⟨hoctet, hrest⟩ := List.cons_eq_cons.mp hsymbols
    exact ⟨⟨hsmall value List.mem_cons_self, hoctet⟩,
      ⟨fun other hother => hsmall other (List.mem_cons_of_mem _ hother), hrest⟩⟩
  · rintro ⟨⟨hvalue, rfl⟩, ⟨hsmall, rfl⟩⟩
    exact ⟨List.forall_mem_cons.mpr ⟨hvalue, hsmall⟩, rfl⟩

theorem values_eq_ok_iff {offset : Nat} {symbols : List UInt8} {given : List Nat} :
    values offset symbols = .ok given ↔ Spells given symbols := by
  induction symbols generalizing offset given with
  | nil =>
      constructor
      · intro hvalues
        cases hvalues
        exact spells_nil
      · rintro ⟨-, hsymbols⟩
        rw [List.map_eq_nil_iff.mp hsymbols.symm]
        rfl
  | cons octet symbols ih =>
      rw [values]
      cases hvalue : symbolValue? octet with
      | none =>
          constructor
          · intro hvalues
            cases hvalues
          · intro hspells
            cases given with
            | nil => cases hspells.symbols_eq
            | cons value given => cases hvalue.symm.trans (spells_cons_iff.mp hspells).1
      | some value =>
          constructor
          · intro hvalues
            cases hrest : values (offset + 1) symbols with
            | error fault =>
                simp only [hrest] at hvalues
                cases hvalues
            | ok rest =>
                simp only [hrest] at hvalues
                cases hvalues
                exact spells_cons_iff.mpr ⟨hvalue, ih.mp hrest⟩
          · intro hspells
            cases given with
            | nil => cases hspells.symbols_eq
            | cons first rest =>
                obtain ⟨hfirst, hrest⟩ := spells_cons_iff.mp hspells
                cases hvalue.symm.trans hfirst
                simp only [ih.mpr hrest]
                rfl

/-- Unless something is padded, the symbols of the last group are taken with their values. -/
theorem lastSymbols_eq_ok {start index : Nat} {padding : Option Nat} {group : List UInt8}
    {symbols : List (Nat × UInt8)}
    (hsymbols : lastSymbols start index padding group = .ok (symbols, false)) :
    padding = none ∧ Spells (symbols.map (·.1)) group := by
  induction group generalizing index padding symbols with
  | nil =>
      rw [lastSymbols] at hsymbols
      obtain ⟨rfl, hpadding⟩ := Prod.mk.inj (Except.ok.inj hsymbols)
      exact ⟨by simpa using hpadding, spells_nil⟩
  | cons octet group ih =>
      unfold lastSymbols at hsymbols
      split at hsymbols
      case isTrue =>
        split at hsymbols
        case isTrue => cases hsymbols
        case isFalse =>
          obtain ⟨hpadding, -⟩ := ih hsymbols
          cases padding with
          | none => cases hpadding
          | some first => cases hpadding
      case isFalse =>
        cases padding with
        | some first => cases hsymbols
        | none =>
            cases hvalue : symbolValue? octet with
            | none =>
                simp only [hvalue] at hsymbols
                cases hsymbols
            | some value =>
                simp only [hvalue] at hsymbols
                cases hrest : lastSymbols start (index + 1) none group with
                | error fault =>
                    rw [hrest] at hsymbols
                    cases hsymbols
                | ok rest =>
                    obtain ⟨found, isPadded⟩ := rest
                    rw [hrest] at hsymbols
                    cases hsymbols
                    exact ⟨rfl, spells_cons_iff.mpr ⟨hvalue, (ih hrest).2⟩⟩

theorem lastSymbols_of_spells {given : List Nat} {group : List UInt8}
    (hspells : Spells given group) (start index : Nat) :
    lastSymbols start index none group =
      .ok (given.map fun value => (value, symbol value), false) := by
  induction group generalizing given index with
  | nil =>
      rw [List.map_eq_nil_iff.mp hspells.symbols_eq.symm]
      rfl
  | cons octet group ih =>
      cases given with
      | nil => cases hspells.symbols_eq
      | cons value given =>
          obtain ⟨hvalue, hrest⟩ := spells_cons_iff.mp hspells
          have hpad : octet ≠ pad := by
            rintro rfl
            cases hvalue
          obtain ⟨-, rfl⟩ := symbolValue?_eq_some_iff.mp hvalue
          rw [lastSymbols, if_neg hpad]
          simp only [hvalue, ih hrest]
          rfl

/-! Groups of symbols and the octets that they spell. -/

theorem ofNat_eq_of_toNat {octet : UInt8} {number : Nat} (hnumber : number % 256 = octet.toNat) :
    UInt8.ofNat number = octet := by
  rw [← UInt8.toNat_inj, UInt8.toNat_ofNat', hnumber]

theorem encode_wholeGroup {first second third fourth : Nat} (hfirst : first < 64)
    (hsecond : second < 64) (hthird : third < 64) (hfourth : fourth < 64) (rest : List UInt8) :
    encode (wholeGroup first second third fourth ++ rest) =
      [first, second, third, fourth].map symbol ++ encode rest := by
  simp only [wholeGroup, List.cons_append, List.nil_append, encode, List.map_cons, List.map_nil,
    UInt8.toNat_ofNat']
  congr 2
  · omega
  congr 2
  · omega
  congr 2
  · omega
  congr 2
  · omega

theorem encode_take_two {first second third : Nat} (hfirst : first < 64) (hsecond : second < 64)
    (hthird : third < 64) (hlast : third % 4 = 0) :
    encode ((wholeGroup first second third 0).take 2) = [first, second, third].map symbol := by
  simp only [wholeGroup, List.take_succ_cons, List.take_zero, encode, List.map_cons, List.map_nil,
    UInt8.toNat_ofNat']
  congr 2
  · omega
  congr 2
  · omega
  congr 2
  · omega

theorem encode_take_one {first second : Nat} (hfirst : first < 64) (hsecond : second < 64)
    (hlast : second % 16 = 0) :
    encode ((wholeGroup first second 0 0).take 1) = [first, second].map symbol := by
  simp only [wholeGroup, List.take_succ_cons, List.take_zero, encode, List.map_cons, List.map_nil,
    UInt8.toNat_ofNat']
  congr 2
  · omega
  congr 2
  · omega

/-- A last group is what encoding its octets writes. -/
theorem encode_of_lastGroup {start : Nat} {group octets : List UInt8} (hlength : group.length ≤ 4)
    (hgroup : lastGroup start group = .ok octets) : encode octets = group := by
  rw [lastGroup] at hgroup
  cases hsymbols : lastSymbols start 0 none group with
  | error fault =>
      rw [hsymbols] at hgroup
      cases hgroup
  | ok found =>
      obtain ⟨symbols, isPadded⟩ := found
      rw [hsymbols] at hgroup
      change (if symbols.length < 2 then _ else if isPadded then _ else _ : Except Fault _) = _
        at hgroup
      cases isPadded with
      | true =>
          split at hgroup
          · cases hgroup
          · cases hgroup
      | false =>
          obtain ⟨-, hspells⟩ := lastSymbols_eq_ok hsymbols
          obtain ⟨hsmall, rfl⟩ := hspells
          match symbols, hgroup with
          | [], hgroup => cases hgroup
          | [_], hgroup => cases hgroup
          | [(first, _), (second, _)], hgroup =>
              change (if second % 16 = 0 then _ else _ : Except Fault _) = _ at hgroup
              split at hgroup
              case isTrue hlast =>
                cases hgroup
                simp only [List.map_cons, List.map_nil, List.forall_mem_cons] at hsmall
                exact encode_take_one hsmall.1 hsmall.2.1 hlast
              case isFalse => cases hgroup
          | [(first, _), (second, _), (third, _)], hgroup =>
              change (if third % 4 = 0 then _ else _ : Except Fault _) = _ at hgroup
              split at hgroup
              case isTrue hlast =>
                cases hgroup
                simp only [List.map_cons, List.map_nil, List.forall_mem_cons] at hsmall
                exact encode_take_two hsmall.1 hsmall.2.1 hsmall.2.2.1 hlast
              case isFalse => cases hgroup
          | [(first, _), (second, _), (third, _), (fourth, _)], hgroup =>
              cases hgroup
              simp only [List.map_cons, List.map_nil, List.forall_mem_cons] at hsmall
              have hwhole := encode_wholeGroup hsmall.1 hsmall.2.1 hsmall.2.2.1 hsmall.2.2.2.1 []
              rwa [List.append_nil] at hwhole
          | _ :: _ :: _ :: _ :: _ :: _, _ =>
              simp only [List.map_cons, List.length_cons] at hlength
              omega

theorem encode_of_groups {start : Nat} {symbols octets : List UInt8}
    (hgroups : groups start symbols = .ok octets) : encode octets = symbols := by
  fun_induction groups start symbols generalizing octets with
  | case1 start first second third fourth fifth rest ih =>
      cases hvalues : values start [first, second, third, fourth] with
      | error fault =>
          rw [hvalues] at hgroups
          cases hgroups
      | ok given =>
          have hspells := values_eq_ok_iff.mp hvalues
          obtain ⟨hsmall, hsymbols⟩ := hspells
          have hlength : given.length = 4 := by
            have hcount := congrArg List.length hsymbols
            rw [List.length_map] at hcount
            exact hcount.symm
          match given, hlength with
          | [firstValue, secondValue, thirdValue, fourthValue], _ =>
              cases hrest : groups (start + 4) (fifth :: rest) with
              | error fault =>
                  rw [hvalues, hrest] at hgroups
                  cases hgroups
              | ok later =>
                  rw [hvalues, hrest] at hgroups
                  cases hgroups
                  simp only [List.forall_mem_cons] at hsmall
                  rw [encode_wholeGroup hsmall.1 hsmall.2.1 hsmall.2.2.1 hsmall.2.2.2.1, ← hsymbols,
                    ih hrest]
                  rfl
  | case2 start group hgroup =>
      refine encode_of_lastGroup ?_ hgroups
      match group, hgroup with
      | [], _ => decide
      | [_], _ => simp
      | [_, _], _ => simp
      | [_, _, _], _ => simp
      | [_, _, _, _], _ => simp
      | first :: second :: third :: fourth :: fifth :: rest, hgroup =>
          exact absurd rfl (hgroup first second third fourth fifth rest)

/-! What encoding writes. -/

theorem isSome_symbolValue?_symbol {value : Nat} (hvalue : value < 64) :
    (symbolValue? (symbol value)).isSome = true := by
  rw [symbolValue?_symbol value hvalue]
  rfl

theorem isSome_of_mem_encode {octets : List UInt8} {octet : UInt8} (hmem : octet ∈ encode octets) :
    (symbolValue? octet).isSome = true := by
  fun_induction encode octets with
  | case1 first second third rest bits ih =>
      have hbits : bits < 2 ^ 24 := by
        have := first.toNat_lt
        have := second.toNat_lt
        have := third.toNat_lt
        omega
      simp only [List.mem_cons] at hmem
      obtain rfl | rfl | rfl | rfl | hrest := hmem
      · exact isSome_symbolValue?_symbol (by omega)
      · exact isSome_symbolValue?_symbol (by omega)
      · exact isSome_symbolValue?_symbol (by omega)
      · exact isSome_symbolValue?_symbol (by omega)
      · exact ih hrest
  | case2 first second bits =>
      have hbits : bits < 2 ^ 18 := by
        have := first.toNat_lt
        have := second.toNat_lt
        omega
      simp only [List.mem_cons, List.not_mem_nil, or_false] at hmem
      obtain rfl | rfl | rfl := hmem
      · exact isSome_symbolValue?_symbol (by omega)
      · exact isSome_symbolValue?_symbol (by omega)
      · exact isSome_symbolValue?_symbol (by omega)
  | case3 first bits =>
      have hbits : bits < 2 ^ 12 := by
        have := first.toNat_lt
        omega
      simp only [List.mem_cons, List.not_mem_nil, or_false] at hmem
      obtain rfl | rfl := hmem
      · exact isSome_symbolValue?_symbol (by omega)
      · exact isSome_symbolValue?_symbol (by omega)
  | case4 => cases hmem

theorem encode_ne_nil {octets : List UInt8} (hoctets : octets ≠ []) : encode octets ≠ [] := by
  unfold encode
  split
  case h_4 => exact absurd rfl hoctets
  all_goals exact List.cons_ne_nil _ _

theorem lastGroup_one (start : Nat) (first : UInt8) :
    lastGroup start (encode [first]) = .ok [first] := by
  have hfirst := first.toNat_lt
  have hspells : Spells [first.toNat * 16 / 64, first.toNat * 16 % 64] (encode [first]) := by
    refine ⟨?_, rfl⟩
    simp only [List.forall_mem_cons, List.not_mem_nil, false_implies, implies_true, and_true]
    omega
  rw [lastGroup, lastSymbols_of_spells hspells]
  change (if first.toNat * 16 % 64 % 16 = 0 then _ else _ : Except Fault _) = _
  rw [if_pos (by omega)]
  refine congrArg (fun octet => Except.ok [octet]) (ofNat_eq_of_toNat ?_)
  omega

theorem lastGroup_two (start : Nat) (first second : UInt8) :
    lastGroup start (encode [first, second]) = .ok [first, second] := by
  have hfirst := first.toNat_lt
  have hsecond := second.toNat_lt
  generalize hbits : (first.toNat * 256 + second.toNat) * 4 = bits
  have hspells : Spells [bits / 4096, bits / 64 % 64, bits % 64] (encode [first, second]) := by
    refine ⟨?_, ?_⟩
    · simp only [List.forall_mem_cons, List.not_mem_nil, false_implies, implies_true, and_true]
      omega
    · rw [← hbits]
      rfl
  rw [lastGroup, lastSymbols_of_spells hspells]
  change (if bits % 64 % 4 = 0 then _ else _ : Except Fault _) = _
  rw [if_pos (by omega)]
  simp only [wholeGroup, List.take_succ_cons, List.take_zero]
  congr 2
  · exact ofNat_eq_of_toNat (by omega)
  congr 1
  · exact ofNat_eq_of_toNat (by omega)

/-- The values of the four symbols for three octets, and the octets that they make up. -/
theorem exists_encode_eq (first second third : UInt8) (rest : List UInt8) :
    ∃ given, Spells given (encode [first, second, third]) ∧ ∃ one two three four,
      given = [one, two, three, four] ∧ wholeGroup one two three four = [first, second, third] ∧
      encode (first :: second :: third :: rest) = given.map symbol ++ encode rest := by
  have hfirst := first.toNat_lt
  have hsecond := second.toNat_lt
  have hthird := third.toNat_lt
  generalize hbits : (first.toNat * 256 + second.toNat) * 256 + third.toNat = bits
  refine ⟨[bits / 262144, bits / 4096 % 64, bits / 64 % 64, bits % 64], ⟨?_, ?_⟩, _, _, _, _, rfl,
    ?_, ?_⟩
  · simp only [List.forall_mem_cons, List.not_mem_nil, false_implies, implies_true, and_true]
    omega
  · rw [← hbits]
    rfl
  · rw [wholeGroup]
    congr 1
    · exact ofNat_eq_of_toNat (by omega)
    congr 1
    · exact ofNat_eq_of_toNat (by omega)
    congr 1
    · exact ofNat_eq_of_toNat (by omega)
  · rw [← hbits]
    rfl

theorem groups_encode {octets : List UInt8} (hoctets : octets ≠ []) (start : Nat) :
    groups start (encode octets) = .ok octets := by
  induction octets using encode.induct generalizing start with
  | case1 first second third rest ih =>
      obtain ⟨given, hspells, one, two, three, four, rfl, hgroup, hencode⟩ :=
        exists_encode_eq first second third rest
      rw [hencode]
      cases rest with
      | nil =>
          have hlast : encode [first, second, third] = [one, two, three, four].map symbol :=
            hspells.symbols_eq
          change lastGroup start ([one, two, three, four].map symbol) = _
          rw [← hlast, lastGroup, lastSymbols_of_spells hspells, ← hgroup]
          rfl
      | cons fourth rest =>
          have hrest : encode (fourth :: rest) ≠ [] := encode_ne_nil (List.cons_ne_nil _ _)
          obtain ⟨next, later, hnext⟩ := List.exists_cons_of_ne_nil hrest
          have hvalues : values start ([one, two, three, four].map symbol) =
              .ok [one, two, three, four] := by
            apply values_eq_ok_iff.mpr
            exact ⟨hspells.small, rfl⟩
          have hgroups := ih (List.cons_ne_nil _ _) (start + 4)
          rw [hnext] at hgroups ⊢
          change groups start (symbol one :: symbol two :: symbol three :: symbol four :: next ::
            later) = _
          rw [List.map_cons, List.map_cons, List.map_cons, List.map_cons, List.map_nil] at hvalues
          rw [groups, hvalues, hgroups]
          change Except.ok (wholeGroup one two three four ++ fourth :: rest) = _
          rw [hgroup]
          rfl
  | case2 first second => exact lastGroup_two start first second
  | case3 first => exact lastGroup_one start first
  | case4 => exact absurd rfl hoctets

/-- Octets are decoded from their text alone. -/
theorem decode_eq_ok_iff {symbols octets : List UInt8} :
    decode symbols = .ok octets ↔ symbols = encode octets := by
  constructor
  · intro hdecode
    rw [decode] at hdecode
    split at hdecode
    case isTrue hempty =>
      cases hdecode
      exact List.isEmpty_iff.mp hempty
    case isFalse hnonempty =>
      split at hdecode
      case h_1 last hlast =>
        split at hdecode
        case isTrue => cases hdecode
        case isFalse => exact (encode_of_groups hdecode).symm
      case h_2 hnone =>
        exact absurd (List.isEmpty_iff.mpr (List.getLast?_eq_none_iff.mp hnone)) hnonempty
  · rintro rfl
    by_cases hoctets : octets = []
    · subst hoctets
      rfl
    · have hnonempty := encode_ne_nil hoctets
      obtain ⟨last, hlast⟩ := List.getLast?_isSome.mpr hnonempty |> Option.isSome_iff_exists.mp
      have hsymbol := isSome_of_mem_encode (List.mem_of_getLast? hlast)
      have hgood : ¬((encode octets).length % 4 = 1 ∧ last ≠ pad ∧
          (symbolValue? last).isNone = true) := by
        rintro ⟨-, -, hnone⟩
        rw [Option.isNone_iff_eq_none] at hnone
        rw [hnone] at hsymbol
        cases hsymbol
      rw [decode, if_neg (mt List.isEmpty_iff.mp hnonempty), hlast]
      exact (if_neg hgood).trans (groups_encode hoctets 0)

end Herald.Token.Base64
