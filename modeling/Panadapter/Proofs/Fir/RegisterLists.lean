import Mathlib.Algebra.Ring.Nat
import Mathlib.Data.String.Basic
import Panadapter.Fir.RegisterMap
import Panadapter.Proofs.Json.Numerals
import Panadapter.Proofs.Outcome

/-!
# Registers found by the ends of their names

The five registers are looked for one by one, each by the end of its name. Of several names with one end the first one
counts, in the order of characters.

* What a search finds is the number at the foremost name (`RegisterMap.addressOf_eq_ok_iff`), or it says what is missing
  (`RegisterMap.missed_of_addressOf`).
* A map has the numbers of five searches (`RegisterMap.ofRegisterList?_eq_ok_iff`), and an error is that of the first
  search that fails (`RegisterMap.ofRegisterList?_eq_error_iff`).
* Where each end belongs to one name at most, the map is told by the five registers alone: `register_list_told`.
-/

namespace Panadapter

open Outcome (map_eq_ok_iff map_eq_error_iff mapM_eq_ok_iff exists_mapM_eq_ok_iff mapM_eq_error_iff)

namespace RegisterMap

open Json (Tree)

/-- The ends of the names of the five registers, in the order of a map. -/
def suffixes : List String :=
  ["fir_cfg", "fir_decimation", "fir_coeff_waddr", "fir_coeff_wdata", "fir_operations_minus_one"]

/-- The addresses of a map, each beside the end of the name of its register. -/
def bySuffix (m : RegisterMap) : List (String × Address) := suffixes.zip m.toList

variable {members : List (String × Tree)} {suffix name : String} {a : Address} {gap : Gap}

/-- A name of a list that has an end. -/
def EndingIn (members : List (String × Tree)) (suffix name : String) : Prop :=
  name ∈ members.map Prod.fst ∧ suffix.toList <:+ name.toList

/-- The first of all names that have an end. -/
def Foremost (members : List (String × Tree)) (suffix name : String) : Prop :=
  EndingIn members suffix name ∧ ∀ other, EndingIn members suffix other → name ≤ other

/-- What stands as the address of a register. -/
def addressValue? (members : List (String × Tree)) (name : String) : Option Tree :=
  (member? name members).bind (memberOf? "addr")

/-- A register of a list has a number as its address. -/
def RegisterAt (members : List (String × Tree)) (name : String) (n : Nat) : Prop :=
  ∃ t, addressValue? members name = some t ∧ t.IsNat n

/-- Why a search finds no address. -/
inductive Missed (members : List (String × Tree)) (suffix : String) : Gap → Prop
  | noRegister (none : ∀ name, ¬EndingIn members suffix name) : Missed members suffix (.noRegister suffix)
  | noAddress {name : String} (first : Foremost members suffix name)
    (none : ∀ n, RegisterAt members name n → 2 ^ 64 ≤ n) : Missed members suffix (.noAddress suffix)
  | outOfRange {name : String} {n : Nat} (first : Foremost members suffix name) (at_number : RegisterAt members name n)
    (large : 2 ^ 32 ≤ n) (word : n < 2 ^ 64) : Missed members suffix (.outOfRange suffix)

/-! ## The foremost name -/

theorem earlier_eq_min (a b : String) : earlier a b = min a b := by
  unfold earlier
  split
  · rename_i lt
    exact (min_eq_right lt.le).symm
  · rename_i notLt
    exact (min_eq_left (not_lt.1 notLt)).symm

theorem foldl_earlier (first : String) (names : List String) :
    names.foldl earlier first ∈ first :: names ∧ ∀ other ∈ first :: names, names.foldl earlier first ≤ other := by
  induction names generalizing first with
  | nil => simp
  | cons second rest ih =>
    obtain ⟨mem, le⟩ := ih (earlier first second)
    rw [List.foldl_cons]
    refine ⟨?_, ?_⟩
    · rcases List.mem_cons.1 mem with here | later
      · rw [here, earlier_eq_min]
        rcases min_choice first second with same | same <;> simp [same]
      · exact List.mem_cons_of_mem _ (List.mem_cons_of_mem _ later)
    · have both := le _ List.mem_cons_self
      rw [earlier_eq_min first second, le_min_iff, ← earlier_eq_min] at both
      simp only [List.forall_mem_cons] at le ⊢
      exact ⟨both.1, both.2, le.2⟩

theorem mem_filter_suffix : name ∈ (members.map Prod.fst).filter (fun name => suffix.toList.isSuffixOf name.toList)
    ↔ EndingIn members suffix name := by
  rw [List.mem_filter, List.isSuffixOf_iff_suffix]
  rfl

theorem firstEndingIn?_eq_none_iff : firstEndingIn? suffix members = none ↔ ∀ name, ¬EndingIn members suffix name := by
  simp only [← mem_filter_suffix]
  unfold firstEndingIn?
  split
  · rename_i none
    simp [none]
  · rename_i first rest some
    refine iff_of_false (Option.some_ne_none _) fun none => none first ?_
    rw [some]
    exact List.mem_cons_self

theorem firstEndingIn?_eq_some_iff : firstEndingIn? suffix members = some name ↔ Foremost members suffix name := by
  simp only [Foremost, ← mem_filter_suffix]
  unfold firstEndingIn?
  split
  · rename_i none
    simp [none]
  · rename_i first rest some
    obtain ⟨mem, le⟩ := foldl_earlier first rest
    rw [some, Option.some_inj]
    constructor
    · rintro rfl
      exact ⟨mem, le⟩
    · rintro ⟨mem', le'⟩
      exact le_antisymm (le name mem') (le' _ mem)

theorem Foremost.unique {other : String} (first : Foremost members suffix name) (second : Foremost members suffix other) :
    name = other := le_antisymm (first.2 other second.1) (second.2 name first.1)

/-! ## One search -/

theorem RegisterAt.unique {m n : Nat} (first : RegisterAt members name m) (second : RegisterAt members name n) : m = n := by
  obtain ⟨t, entry, told⟩ := first
  obtain ⟨u, entry', told'⟩ := second
  obtain rfl := Option.some.inj (entry.symm.trans entry')
  exact told.unique told'

theorem addressOf_of_number {n : Nat} (first : Foremost members suffix name) (told : RegisterAt members name n)
    (word : n < 2 ^ 64) :
    addressOf members suffix = if n < 2 ^ 32 then .ok (UInt32.ofNat n) else .error (.outOfRange suffix) := by
  obtain ⟨t, entry, ds, rfl, value⟩ := told
  have found := firstEndingIn?_eq_some_iff.2 first
  have worth := Json.number?_eq_natural_iff.2 ⟨⟨ds, rfl, value⟩, word⟩
  rw [addressValue?] at entry
  have bound : n ≤ Json.largest32 ↔ n < 2 ^ 32 := Nat.lt_succ_iff.symm
  simp only [addressOf, found, entry, worth, bound]

theorem addressOf_of_no_number (first : Foremost members suffix name)
    (none : ∀ n, RegisterAt members name n → 2 ^ 64 ≤ n) : addressOf members suffix = .error (.noAddress suffix) := by
  have found := firstEndingIn?_eq_some_iff.2 first
  simp only [addressOf, found]
  split
  · rename_i x entry
    split
    · rename_i n worth
      obtain ⟨number, word⟩ := Json.number?_eq_natural_iff.1 worth
      exact absurd (none n ⟨_, entry, number⟩) (Nat.not_le_of_lt word)
    · rfl
  · rfl

/-- A search comes to an address or to a gap. -/
theorem addressOf_cases (members : List (String × Tree)) (suffix : String) :
    (∃ a name, addressOf members suffix = .ok a ∧ Foremost members suffix name ∧ RegisterAt members name a.toNat)
      ∨ ∃ gap, addressOf members suffix = .error gap ∧ Missed members suffix gap := by
  cases found : firstEndingIn? suffix members with
  | none => exact .inr ⟨_, by simp only [addressOf, found], .noRegister (firstEndingIn?_eq_none_iff.1 found)⟩
  | some name =>
    have first := firstEndingIn?_eq_some_iff.1 found
    by_cases told : ∃ n, RegisterAt members name n ∧ n < 2 ^ 64
    · obtain ⟨n, told, word⟩ := told
      have search := addressOf_of_number first told word
      by_cases small : n < 2 ^ 32
      · rw [if_pos small] at search
        have same : (UInt32.ofNat n).toNat = n := UInt32.toNat_ofNat_of_lt' small
        exact .inl ⟨_, name, search, first, same.symm ▸ told⟩
      · rw [if_neg small] at search
        exact .inr ⟨_, search, .outOfRange first told (Nat.le_of_not_lt small) word⟩
    · have none : ∀ n, RegisterAt members name n → 2 ^ 64 ≤ n := fun n at_n =>
        Nat.le_of_not_lt fun word => told ⟨n, at_n, word⟩
      exact .inr ⟨_, addressOf_of_no_number first none, .noAddress first none⟩

/-- Where something is missed no address is told. -/
theorem Missed.not_registerAt {n : Nat} (missed : Missed members suffix gap) (first : Foremost members suffix name)
    (small : n < 2 ^ 32) : ¬RegisterAt members name n := by
  intro told
  cases missed with
  | noRegister none => exact none name first.1
  | noAddress first' none =>
    obtain rfl := first.unique first'
    have := none n told
    omega
  | outOfRange first' told' large word =>
    obtain rfl := first.unique first'
    obtain rfl := told.unique told'
    omega

/-- What a search finds is the number at the foremost name. -/
theorem addressOf_eq_ok_iff : addressOf members suffix = .ok a
    ↔ ∃ name, Foremost members suffix name ∧ RegisterAt members name a.toNat := by
  rcases addressOf_cases members suffix with ⟨b, name, search, first, told⟩ | ⟨gap, search, missed⟩
  · rw [search, Except.ok.injEq]
    constructor
    · rintro rfl
      exact ⟨name, first, told⟩
    · rintro ⟨other, first', told'⟩
      obtain rfl := first.unique first'
      exact UInt32.toNat_inj.1 (told.unique told')
  · rw [search]
    refine iff_of_false (fun ok => by cases ok) ?_
    rintro ⟨name, first, told⟩
    exact missed.not_registerAt first a.toNat_lt told

theorem missed_of_addressOf (search : addressOf members suffix = .error gap) : Missed members suffix gap := by
  rcases addressOf_cases members suffix with ⟨a, name, found, -⟩ | ⟨gap', found, missed⟩
  · cases search.symm.trans found
  · exact Except.error.inj (search.symm.trans found) ▸ missed

/-! ## Five searches -/

variable {root : Tree} {m : RegisterMap}

theorem toList_injective {m m' : RegisterMap} (same : m.toList = m'.toList) : m = m' := by
  cases m
  cases m'
  simp_all [toList]

/-- The five searches are made one after the other. -/
theorem toList_ofRegisterList? (listed : memberOf? "csr_registers" root = some (.object members)) :
    (ofRegisterList? root).map toList = suffixes.mapM (addressOf members) := by
  unfold ofRegisterList?
  rw [listed]
  simp only [suffixes, List.mapM_cons, List.mapM_nil]
  cases addressOf members "fir_cfg" <;> cases addressOf members "fir_decimation"
    <;> cases addressOf members "fir_coeff_waddr" <;> cases addressOf members "fir_coeff_wdata"
    <;> cases addressOf members "fir_operations_minus_one" <;> rfl

theorem ofRegisterList?_eq_ok_iff (listed : memberOf? "csr_registers" root = some (.object members)) :
    ofRegisterList? root = .ok m ↔ ∀ x ∈ m.bySuffix, ∃ name, Foremost members x.1 name
      ∧ RegisterAt members name x.2.toNat := by
  have searches : ofRegisterList? root = .ok m ↔ suffixes.mapM (addressOf members) = .ok m.toList := by
    rw [← toList_ofRegisterList? listed, map_eq_ok_iff]
    constructor
    · exact fun ok => ⟨m, ok, rfl⟩
    · rintro ⟨m', ok, same⟩
      rw [ok, toList_injective same]
  rw [searches, mapM_eq_ok_iff, List.forall₂_iff_zip]
  simp only [addressOf_eq_ok_iff]
  constructor
  · rintro ⟨-, each⟩ x mem
    exact each mem
  · intro each
    exact ⟨rfl, fun mem => each _ mem⟩

theorem exists_ofRegisterList?_eq_ok_iff (listed : memberOf? "csr_registers" root = some (.object members)) :
    (∃ m, ofRegisterList? root = .ok m) ↔ ∀ suffix ∈ suffixes, ∃ a, addressOf members suffix = .ok a := by
  rw [← exists_mapM_eq_ok_iff, ← toList_ofRegisterList? listed]
  simp only [map_eq_ok_iff]
  constructor
  · rintro ⟨m, ok⟩
    exact ⟨m.toList, m, ok, rfl⟩
  · rintro ⟨_, m, ok, -⟩
    exact ⟨m, ok⟩

theorem ofRegisterList?_eq_error_iff (listed : memberOf? "csr_registers" root = some (.object members)) :
    ofRegisterList? root = .error gap ↔ ∃ before suffix after, suffixes = before ++ suffix :: after
      ∧ (∀ s ∈ before, ∃ a, addressOf members s = .ok a) ∧ addressOf members suffix = .error gap := by
  rw [← mapM_eq_error_iff, ← toList_ofRegisterList? listed, map_eq_error_iff]

/-! ## What counts in a list -/

/-- Another list with the same names of the five ends, and the same addresses at them. -/
def SameAddresses (members members' : List (String × Tree)) : Prop :=
  ∀ suffix ∈ suffixes, ∀ name, (EndingIn members' suffix name ↔ EndingIn members suffix name)
    ∧ (EndingIn members suffix name → addressValue? members' name = addressValue? members name)

theorem SameAddresses.addressOf_eq {members' : List (String × Tree)} (same : SameAddresses members members')
    (mem : suffix ∈ suffixes) : addressOf members' suffix = addressOf members suffix := by
  have names : ∀ name, EndingIn members' suffix name ↔ EndingIn members suffix name := fun name =>
    (same suffix mem name).1
  have foremost : firstEndingIn? suffix members' = firstEndingIn? suffix members := by
    refine Option.ext fun name => ?_
    rw [firstEndingIn?_eq_some_iff, firstEndingIn?_eq_some_iff]
    simp only [Foremost, names]
  cases found : firstEndingIn? suffix members with
  | none => simp only [addressOf, foremost, found]
  | some name =>
    have entry := (same suffix mem name).2 (firstEndingIn?_eq_some_iff.1 found).1
    rw [addressValue?, addressValue?] at entry
    simp only [addressOf, foremost, found, entry]

/-- Nothing else in a file counts. -/
theorem SameAddresses.ofRegisterList?_eq {root' : Tree} {members' : List (String × Tree)}
    (same : SameAddresses members members') (listed : memberOf? "csr_registers" root = some (.object members))
    (listed' : memberOf? "csr_registers" root' = some (.object members')) :
    ofRegisterList? root' = ofRegisterList? root := by
  have each : ∀ suffix ∈ suffixes, addressOf members' suffix = addressOf members suffix := fun _ => same.addressOf_eq
  simp only [suffixes, List.forall_mem_cons] at each
  obtain ⟨cfg, decimation, waddr, wdata, operations, -⟩ := each
  simp only [ofRegisterList?, listed, listed', cfg, decimation, waddr, wdata, operations]

theorem mem_of_member? {t : Tree} (found : member? name members = some t) : (name, t) ∈ members := by
  obtain ⟨before, after, parts, -⟩ := List.lookup_eq_some_iff.1 found
  rw [← List.mem_reverse, parts]
  exact List.mem_append_right _ List.mem_cons_self

theorem RegisterAt.named {n : Nat} (told : RegisterAt members name n) : name ∈ members.map Prod.fst := by
  obtain ⟨t, entry, -⟩ := told
  obtain ⟨u, found, -⟩ := Option.bind_eq_some_iff.1 entry
  exact List.mem_map_of_mem (mem_of_member? found)

/-- A member that is given once is found wherever it stands. -/
theorem member?_eq_some_iff (nodup : (members.map Prod.fst).Nodup) {t : Tree} :
    member? name members = some t ↔ (name, t) ∈ members := by
  refine ⟨mem_of_member?, fun mem => ?_⟩
  have nodup' : (members.reverse.map Prod.fst).Nodup := by
    rw [List.map_reverse]
    exact (List.reverse_perm _).nodup_iff.2 nodup
  obtain ⟨before, after, parts⟩ := List.append_of_mem (List.mem_reverse.2 mem)
  refine List.lookup_eq_some_iff.2 ⟨before, after, parts, fun x earlier => ?_⟩
  rw [parts, List.map_append, List.map_cons, List.nodup_append] at nodup'
  have apart := nodup'.2.2 x.1 (List.mem_map_of_mem earlier) name List.mem_cons_self
  exact bne_iff_ne.2 (Ne.symm apart)

theorem SameAddresses.of_perm {members' : List (String × Tree)} (perm : members'.Perm members)
    (nodup : (members.map Prod.fst).Nodup) : SameAddresses members members' := by
  intro suffix _ name
  have names : (members'.map Prod.fst).Perm (members.map Prod.fst) := perm.map _
  have found : member? name members' = member? name members := by
    refine Option.ext fun t => ?_
    rw [member?_eq_some_iff nodup, member?_eq_some_iff (names.nodup_iff.2 nodup), perm.mem_iff]
  refine ⟨?_, fun _ => ?_⟩
  · rw [EndingIn, EndingIn, names.mem_iff]
  · rw [addressValue?, addressValue?, found]

/-! ## The list of a map -/

/-- No name of one end has another end. -/
theorem suffixes_apart : ∀ s ∈ suffixes, ∀ t ∈ suffixes, s.toList <:+ t.toList → s = t := by decide +kernel

theorem suffix_toList_append (p suffix : String) : suffix.toList <:+ (p ++ suffix).toList := by
  rw [String.toList_append]
  exact List.suffix_append _ _

theorem eq_of_suffix_append {s t : String} (mem : s ∈ suffixes) (mem' : t ∈ suffixes) {p : String}
    (ending : s.toList <:+ (p ++ t).toList) : s = t := by
  rcases List.suffix_or_suffix_of_suffix ending (suffix_toList_append p t) with short | long
  · exact suffixes_apart s mem t mem' short
  · exact (suffixes_apart t mem' s mem long).symm

/-- A register in a list: its name behind a prefix, and its address. -/
def entryAt (p : String) (x : String × Address) : String × Tree :=
  (p ++ x.1, .object [("addr", .ofNat x.2.toNat)])

/-- The five registers of a map in a list, their names behind a prefix. -/
def listing (p : String) (m : RegisterMap) : List (String × Tree) := m.bySuffix.map (entryAt p)

section

variable {p : String} {m : RegisterMap} {others : List (String × Tree)}

theorem names_listing : (listing p m).map Prod.fst = suffixes.map (p ++ ·) := rfl

theorem endingIn_append : EndingIn (members ++ others) suffix name
    ↔ EndingIn members suffix name ∨ EndingIn others suffix name := by
  rw [EndingIn, List.map_append, List.mem_append, or_and_right]
  rfl

theorem endingIn_listing (mem : suffix ∈ suffixes) : EndingIn (listing p m) suffix name ↔ name = p ++ suffix := by
  rw [EndingIn, names_listing, List.mem_map]
  constructor
  · rintro ⟨⟨other, mem', rfl⟩, ending⟩
    rw [eq_of_suffix_append mem mem' ending]
  · rintro rfl
    exact ⟨⟨suffix, mem, rfl⟩, suffix_toList_append p suffix⟩

theorem registerAt_append (absent : name ∉ others.map Prod.fst) {n : Nat} :
    RegisterAt (members ++ others) name n ↔ RegisterAt members name n := by
  have none : others.reverse.lookup name = none := by
    rw [List.lookup_eq_none_iff]
    exact fun x mem => bne_iff_ne.2 fun same => absent (List.mem_map.2 ⟨x, List.mem_reverse.1 mem, same.symm⟩)
  have found : member? name (members ++ others) = member? name members := by
    rw [member?, member?, List.reverse_append, List.lookup_append, none, Option.none_or]
  rw [RegisterAt, RegisterAt, addressValue?, addressValue?, found]

theorem registerAt_listing {x : String × Address} (mem : x ∈ m.bySuffix) :
    RegisterAt (listing p m) (p ++ x.1) x.2.toNat := by
  have nodup : ((listing p m).map Prod.fst).Nodup := by
    have each : suffixes.Nodup := by decide
    rw [names_listing]
    exact List.Pairwise.map (p ++ ·) (fun s t apart same => apart ((String.append_right_inj p).1 same)) each
  have found := (member?_eq_some_iff nodup).2 (List.mem_map_of_mem mem)
  refine ⟨.ofNat x.2.toNat, ?_, _, rfl, Decimal.valueOfDigits_digits _⟩
  rw [addressValue?, found, Option.bind_some]
  rfl

/-! In a longer list, among registers that have nothing to do with the map. -/

variable (unrelated : ∀ suffix ∈ suffixes, ∀ name, ¬EndingIn others suffix name)

include unrelated

theorem endingIn_listing_append (mem : suffix ∈ suffixes) :
    EndingIn (listing p m ++ others) suffix name ↔ name = p ++ suffix := by
  rw [endingIn_append, endingIn_listing mem, or_iff_left (unrelated suffix mem name)]

theorem registerAt_listing_append {x : String × Address} (mem : x ∈ m.bySuffix) :
    RegisterAt (listing p m ++ others) (p ++ x.1) x.2.toNat := by
  have absent : p ++ x.1 ∉ others.map Prod.fst := fun named =>
    unrelated x.1 (List.of_mem_zip mem).1 (p ++ x.1) ⟨named, suffix_toList_append p x.1⟩
  exact (registerAt_append absent).2 (registerAt_listing mem)

/-- What is written of a map is told by the list. -/
theorem ofRegisterList?_listing
    (listed : memberOf? "csr_registers" root = some (.object (listing p m ++ others))) :
    ofRegisterList? root = .ok m := by
  refine (ofRegisterList?_eq_ok_iff listed).2 fun x mem => ?_
  have ending : ∀ name, EndingIn (listing p m ++ others) x.1 name ↔ name = p ++ x.1 := fun _ =>
    endingIn_listing_append unrelated (List.of_mem_zip mem).1
  exact ⟨p ++ x.1, ⟨(ending _).2 rfl, fun other ending' => ((ending other).1 ending').ge⟩,
    registerAt_listing_append unrelated mem⟩

end

/-! ## Lists with one register for each end -/

/-- Whether a list tells an address at the end of a name. -/
def Told (members : List (String × Tree)) (suffix : String) : Prop :=
  ∃ name, EndingIn members suffix name ∧ ∃ n < 2 ^ 32, RegisterAt members name n

/-- Names for one end each. -/
def Single (members : List (String × Tree)) : Prop :=
  ∀ suffix ∈ suffixes, ∀ a b, EndingIn members suffix a → EndingIn members suffix b → a = b

theorem single_listing {p : String} {m : RegisterMap} {others : List (String × Tree)}
    (unrelated : ∀ suffix ∈ suffixes, ∀ name, ¬EndingIn others suffix name) : Single (listing p m ++ others) := by
  intro suffix mem a b first second
  rw [(endingIn_listing_append unrelated mem).1 first, (endingIn_listing_append unrelated mem).1 second]

theorem Single.foremost_iff (single : Single members) (mem : suffix ∈ suffixes) :
    Foremost members suffix name ↔ EndingIn members suffix name := by
  refine ⟨And.left, fun ending => ⟨ending, fun other ending' => ?_⟩⟩
  exact (single suffix mem name other ending ending').le

theorem Single.told_iff (single : Single members) (mem : suffix ∈ suffixes) :
    (∃ a, addressOf members suffix = .ok a) ↔ Told members suffix := by
  simp only [addressOf_eq_ok_iff, single.foremost_iff mem]
  constructor
  · rintro ⟨a, name, ending, at_a⟩
    exact ⟨name, ending, a.toNat, a.toNat_lt, at_a⟩
  · rintro ⟨name, ending, n, small, at_n⟩
    have same : (UInt32.ofNat n).toNat = n := UInt32.toNat_ofNat_of_lt' small
    exact ⟨UInt32.ofNat n, name, ending, same.symm ▸ at_n⟩

/-- What is missed is named. -/
theorem Missed.message_mem (missed : Missed members suffix gap) :
    gap.message ∈ ["no register ending in " ++ suffix, "register " ++ suffix ++ " has no addr",
      suffix ++ " address out of range"] := by
  cases missed with
  | noRegister => exact List.mem_cons_self
  | noAddress => exact List.mem_cons_of_mem _ List.mem_cons_self
  | outOfRange => exact List.mem_cons_of_mem _ (List.mem_cons_of_mem _ List.mem_cons_self)

/-- **The map that a list of registers tells**, where each of the five ends belongs to one name at most. It has the
addresses of the five registers, if all of them are told. Else there is the error of the first end whose address is not
told. Nothing else in the file counts, nor does the order of the names. -/
theorem register_list_told (root : Tree) (members : List (String × Tree))
    (listed : memberOf? "csr_registers" root = some (.object members))
    (single : Single members) :
    (∀ m, ofRegisterList? root = .ok m
      ↔ ∀ x ∈ m.bySuffix, ∃ name, EndingIn members x.1 name ∧ RegisterAt members name x.2.toNat)
    ∧ ((∃ m, ofRegisterList? root = .ok m) ↔ ∀ suffix ∈ suffixes, Told members suffix)
    ∧ (∀ gap, ofRegisterList? root = .error gap → ∃ before suffix after, suffixes = before ++ suffix :: after
      ∧ (∀ s ∈ before, Told members s) ∧ ¬Told members suffix ∧ Missed members suffix gap
      ∧ gap.message ∈ ["no register ending in " ++ suffix, "register " ++ suffix ++ " has no addr",
        suffix ++ " address out of range"])
    ∧ ∀ root' members', memberOf? "csr_registers" root' = some (.object members') →
      SameAddresses members members' ∨ (members'.Perm members ∧ (members.map Prod.fst).Nodup) →
      ofRegisterList? root' = ofRegisterList? root := by
  refine ⟨fun m => ?_, ?_, fun gap error => ?_, fun root' members' listed' same => ?_⟩
  · rw [ofRegisterList?_eq_ok_iff listed]
    refine forall₂_congr fun x mem => ?_
    simp only [single.foremost_iff (List.of_mem_zip mem).1]
  · rw [exists_ofRegisterList?_eq_ok_iff listed]
    exact forall₂_congr fun suffix mem => single.told_iff mem
  · obtain ⟨before, suffix, after, parts, each, search⟩ := (ofRegisterList?_eq_error_iff listed).1 error
    have missed := missed_of_addressOf search
    refine ⟨before, suffix, after, parts, fun s mem => ?_, ?_, missed, missed.message_mem⟩
    · exact (single.told_iff (parts ▸ List.mem_append_left _ mem)).1 (each s mem)
    · rw [← single.told_iff (parts ▸ List.mem_append_right _ List.mem_cons_self)]
      rintro ⟨a, ok⟩
      cases search.symm.trans ok
  · exact (same.elim id fun perm => .of_perm perm.1 perm.2).ofRegisterList?_eq listed listed'

/-- The five registers of a board, and one more register of its filter. -/
theorem register_list_told_board :
    let members := listing "sdr_processing_" (ofBase 0x3000) ++ [entryAt "sdr_processing_" ("fir_status", 0x3014)]
    Single members ∧ ofRegisterList? (.object [("csr_registers", .object members)]) = .ok (ofBase 0x3000) := by
  intro members
  have unrelated : ∀ suffix ∈ suffixes, ∀ name,
      ¬EndingIn [entryAt "sdr_processing_" ("fir_status", 0x3014)] suffix name := by
    have status : ∀ suffix ∈ suffixes, ¬suffix.toList <:+ "sdr_processing_fir_status".toList := by decide +kernel
    rintro suffix mem name ⟨named, ending⟩
    obtain rfl : name = "sdr_processing_fir_status" := List.mem_singleton.1 named
    exact status suffix mem ending
  have single : Single members := single_listing unrelated
  have told := register_list_told (.object [("csr_registers", .object members)]) members rfl single
  refine ⟨single, (told.1 (ofBase 0x3000)).2 fun x mem => ⟨"sdr_processing_" ++ x.1, ?_, ?_⟩⟩
  · exact (endingIn_listing_append unrelated (List.of_mem_zip mem).1).2 rfl
  · exact registerAt_listing_append unrelated mem

end RegisterMap

end Panadapter
