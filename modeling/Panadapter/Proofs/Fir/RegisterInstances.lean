import Mathlib.Algebra.Ring.Nat
import Panadapter.Proofs.Fir.RegisterLists
import Panadapter.Proofs.Json.Records
import Panadapter.Proofs.Text.Lines

/-!
# Several instances of the filter in one list

A board may have several filters, and its list has the registers of each behind a prefix of its own. The five searches
know nothing of each other, so a map may have registers of two instances.

* Behind prefixes of which none begins another one, names are in the order of the prefixes
  (`RegisterMap.append_lt_append_iff`), so every search that finds a register of the first instance stops there.
* A map is of one instance exactly if one prefix tells what the foremost names tell; among separate instances with
  addresses of their own, exactly if the first instance has all five registers (`one_instance_iff`).
* Where the first instance has some of the registers only, the map is mixed (`not_forall_one_instance`).
-/

namespace Panadapter

open Outcome (bind_eq_ok_iff mapError_eq_ok_iff)

namespace RegisterMap

open Json (Tree)

variable {members : List (String × Tree)} {m : RegisterMap} {p q : String}

/-- The addresses of a map are those of the registers behind one prefix. -/
def OfOneInstance (members : List (String × Tree)) (m : RegisterMap) : Prop :=
  ∃ p : String, ∀ x ∈ m.bySuffix, RegisterAt members (p ++ x.1) x.2.toNat

/-- A list has one of the registers behind a prefix. -/
def Instance (members : List (String × Tree)) (p : String) : Prop :=
  ∃ suffix ∈ suffixes, p ++ suffix ∈ members.map Prod.fst

/-- A list has all of the registers behind a prefix. -/
def Complete (members : List (String × Tree)) (p : String) : Prop :=
  ∀ suffix ∈ suffixes, p ++ suffix ∈ members.map Prod.fst

/-- The first prefix of all instances. -/
def FirstInstance (members : List (String × Tree)) (p : String) : Prop :=
  Instance members p ∧ ∀ q, Instance members q → p ≤ q

/-- The prefix of no instance begins the one of another. -/
def Apart (members : List (String × Tree)) : Prop :=
  ∀ p q, Instance members p → Instance members q → p.toList <+: q.toList → p = q

/-- Registers of different names have different addresses. -/
def OwnAddresses (members : List (String × Tree)) : Prop :=
  ∀ a b n, RegisterAt members a n → RegisterAt members b n → a = b

/-! ## Names behind prefixes -/

theorem list_append_lt_append_iff {p q : List Char} (left : ¬p <+: q) (right : ¬q <+: p) (s t : List Char) :
    p ++ s < q ++ t ↔ p < q := by
  induction p generalizing q with
  | nil => exact absurd List.nil_prefix left
  | cons c p ih =>
    cases q with
    | nil => exact absurd List.nil_prefix right
    | cons d q =>
      rw [List.cons_append, List.cons_append, List.cons_lt_cons_iff, List.cons_lt_cons_iff]
      refine or_congr_right (and_congr_right fun same => ih ?_ ?_)
      · exact fun begins => left (List.cons_prefix_cons.2 ⟨same, begins⟩)
      · exact fun begins => right (List.cons_prefix_cons.2 ⟨same.symm, begins⟩)

/-- Names are in the order of their prefixes, whatever is behind them. -/
theorem append_lt_append_iff (left : ¬p.toList <+: q.toList) (right : ¬q.toList <+: p.toList) (s t : String) :
    p ++ s < q ++ t ↔ p < q := by
  rw [String.lt_iff_toList_lt, String.lt_iff_toList_lt, String.toList_append, String.toList_append,
    list_append_lt_append_iff left right]

/-- A name with an end is a register of an instance. -/
theorem exists_prefix_of_endingIn {suffix name : String} (ending : EndingIn members suffix name) :
    ∃ q, name = q ++ suffix := by
  obtain ⟨q, parts⟩ := ending.2
  refine ⟨String.ofList q, String.toList_inj.1 ?_⟩
  rw [String.toList_append, String.toList_ofList, parts]

theorem endingIn_of_mem {suffix : String} (named : p ++ suffix ∈ members.map Prod.fst) :
    EndingIn members suffix (p ++ suffix) :=
  ⟨named, suffix_toList_append p suffix⟩

/-- Registers of separate instances stand in the order of the instances. -/
theorem Apart.append_le_append_iff (apart : Apart members) (one : Instance members p) (other : Instance members q)
    (suffix : String) : p ++ suffix ≤ q ++ suffix ↔ p ≤ q := by
  by_cases same : p = q
  · subst same
    exact iff_of_true le_rfl le_rfl
  · have left : ¬q.toList <+: p.toList := fun begins => same (apart q p other one begins).symm
    have right : ¬p.toList <+: q.toList := fun begins => same (apart p q one other begins)
    rw [← not_lt, ← not_lt, append_lt_append_iff left right]

/-- The registers of a complete first instance are the foremost ones. -/
theorem FirstInstance.foremost (apart : Apart members) (first : FirstInstance members p) (complete : Complete members p)
    {suffix : String} (mem : suffix ∈ suffixes) : Foremost members suffix (p ++ suffix) := by
  refine ⟨endingIn_of_mem (complete suffix mem), fun other ending => ?_⟩
  obtain ⟨q, rfl⟩ := exists_prefix_of_endingIn ending
  have found : Instance members q := ⟨suffix, mem, ending.1⟩
  exact (apart.append_le_append_iff first.1 found suffix).2 (first.2 q found)

/-- An instance whose registers are the foremost ones is the first one, and complete. -/
theorem firstInstance_of_foremost (apart : Apart members)
    (foremost : ∀ suffix ∈ suffixes, Foremost members suffix (p ++ suffix)) :
    FirstInstance members p ∧ Complete members p := by
  have complete : Complete members p := fun suffix mem => (foremost suffix mem).1.1
  have one : Instance members p := ⟨_, List.mem_cons_self, complete _ List.mem_cons_self⟩
  refine ⟨⟨one, fun q found => ?_⟩, complete⟩
  obtain ⟨suffix, mem, named⟩ := found
  exact (apart.append_le_append_iff one ⟨suffix, mem, named⟩ suffix).1
    ((foremost suffix mem).2 _ (endingIn_of_mem named))

/-! ## Maps of foremost registers -/

/-- The addresses of a map are those at the foremost names. -/
def OfForemost (members : List (String × Tree)) (m : RegisterMap) : Prop :=
  ∀ x ∈ m.bySuffix, ∃ name, Foremost members x.1 name ∧ RegisterAt members name x.2.toNat

theorem exists_mem_bySuffix {suffix : String} (mem : suffix ∈ suffixes) : ∃ a, (suffix, a) ∈ m.bySuffix := by
  have names : m.bySuffix.map Prod.fst = suffixes := rfl
  rw [← names, List.mem_map] at mem
  obtain ⟨x, mem, rfl⟩ := mem
  exact ⟨x.2, mem⟩

theorem OfForemost.ofOneInstance_iff (found : OfForemost members m) :
    OfOneInstance members m ↔ ∃ p : String, ∀ suffix ∈ suffixes, ∃ name n, Foremost members suffix name
      ∧ RegisterAt members name n ∧ RegisterAt members (p ++ suffix) n := by
  constructor
  · rintro ⟨p, each⟩
    refine ⟨p, fun suffix mem => ?_⟩
    obtain ⟨a, mem⟩ := exists_mem_bySuffix (m := m) mem
    obtain ⟨name, foremost, told⟩ := found _ mem
    exact ⟨name, a.toNat, foremost, told, each _ mem⟩
  · rintro ⟨p, each⟩
    refine ⟨p, fun x mem => ?_⟩
    obtain ⟨name, n, foremost, told, behind⟩ := each x.1 (List.of_mem_zip mem).1
    obtain ⟨other, foremost', told'⟩ := found x mem
    obtain rfl := foremost.unique foremost'
    obtain rfl := told.unique told'
    exact behind

/-- Where the first instance is complete, the map is of it. -/
theorem OfForemost.registerAt (found : OfForemost members m) (apart : Apart members) (first : FirstInstance members p)
    (complete : Complete members p) : ∀ x ∈ m.bySuffix, RegisterAt members (p ++ x.1) x.2.toNat := by
  intro x mem
  obtain ⟨name, foremost, told⟩ := found x mem
  obtain rfl := foremost.unique (first.foremost apart complete (List.of_mem_zip mem).1)
  exact told

theorem OfForemost.ofOneInstance_iff_of_apart (found : OfForemost members m) (apart : Apart members)
    (own : OwnAddresses members) :
    OfOneInstance members m ↔ ∃ p, FirstInstance members p ∧ Complete members p := by
  constructor
  · rintro ⟨p, each⟩
    refine ⟨p, firstInstance_of_foremost apart fun suffix mem => ?_⟩
    obtain ⟨a, mem⟩ := exists_mem_bySuffix (m := m) mem
    obtain ⟨name, foremost, told⟩ := found _ mem
    exact own name _ _ told (each _ mem) ▸ foremost
  · rintro ⟨p, first, complete⟩
    exact ⟨p, found.registerAt apart first complete⟩

/-! ## Files of registers -/

section

variable {s : Storage} {path : String}

/-- The list of registers in a file. -/
def ListedIn (s : Storage) (path : String) (members : List (String × Tree)) : Prop :=
  ∃ text root, s.readText path = .ok text ∧ Json.decode Json.readAny text = .ok root
    ∧ memberOf? "csr_registers" root = some (.object members)

theorem ListedIn.unique {members' : List (String × Tree)} (listed : ListedIn s path members)
    (listed' : ListedIn s path members') : members = members' := by
  obtain ⟨text, root, read, decoded, registers⟩ := listed
  obtain ⟨text', root', read', decoded', registers'⟩ := listed'
  obtain rfl := Except.ok.inj (read.symm.trans read')
  obtain rfl := Except.ok.inj (decoded.symm.trans decoded')
  exact Tree.object.inj (Option.some.inj (registers.symm.trans registers'))

theorem load?_eq_ok_iff : load? s path = .ok m ↔ ∃ text root,
    s.readText path = .ok text ∧ Json.decode Json.readAny text = .ok root ∧ ofRegisterList? root = .ok m := by
  simp only [load?, bind_eq_ok_iff, mapError_eq_ok_iff, exists_and_left]

theorem exists_object_of_ofRegisterList? {root : Tree} (ok : ofRegisterList? root = .ok m) :
    ∃ members, memberOf? "csr_registers" root = some (.object members) := by
  unfold ofRegisterList? at ok
  split at ok
  · exact ⟨_, by assumption⟩
  · cases ok

/-- What is loaded is of the foremost registers of a list. -/
theorem exists_listedIn (loaded : load? s path = .ok m) : ∃ members, ListedIn s path members ∧ OfForemost members m := by
  obtain ⟨text, root, read, decoded, ok⟩ := load?_eq_ok_iff.1 loaded
  obtain ⟨members, registers⟩ := exists_object_of_ofRegisterList? ok
  exact ⟨members, ⟨text, root, read, decoded, registers⟩, (ofRegisterList?_eq_ok_iff registers).1 ok⟩

end

/-- A list where nothing but addresses stands. -/
def Plain (members : List (String × Tree)) : Prop :=
  ∀ x ∈ members, ∃ a : Address, x.2 = .object [("addr", .ofNat a.toNat)]

theorem plain_listing (p : String) (m : RegisterMap) : Plain (listing p m) := by
  intro x mem
  obtain ⟨y, -, rfl⟩ := List.mem_map.1 mem
  exact ⟨y.2, rfl⟩

theorem plain_entryAt (p : String) (x : String × Address) : Plain [entryAt p x] :=
  List.forall_mem_singleton.2 ⟨x.2, rfl⟩

theorem Plain.append {others : List (String × Tree)} (plain : Plain members) (plain' : Plain others) :
    Plain (members ++ others) :=
  fun x mem => (List.mem_append.1 mem).elim (plain x) (plain' x)

theorem Plain.writable (plain : Plain members) : Tree.HaveWritable members := by
  induction members with
  | nil => trivial
  | cons x members ih =>
    obtain ⟨⟨a, address⟩, plain⟩ := List.forall_mem_cons.1 plain
    refine ⟨?_, ih plain⟩
    rw [address]
    exact ⟨Json.writable_ofNat _, trivial⟩

theorem Plain.haveKept (plain : Plain members) {levels : Nat} (deep : 0 < levels) :
    Tree.haveKept levels members = true := by
  induction members with
  | nil => rfl
  | cons x members ih =>
    obtain ⟨⟨a, address⟩, plain⟩ := List.forall_mem_cons.1 plain
    have small : a.toNat < Json.wordBound := a.toNat_lt.trans (by decide)
    have number : (Tree.ofNat a.toNat).isKept (levels - 1) = true := by
      rw [Tree.ofNat, Tree.isKept, Json.number?_ofNat small]
      rfl
    have level : (levels != 0) = true := bne_iff_ne.2 deep.ne'
    rw [Tree.haveKept, ih plain, address, Tree.isKept, Tree.haveKept, number, level]
    rfl

/-- A file with a list of registers. -/
def boardTree (members : List (String × Tree)) : Tree := .object [("csr_registers", .object members)]

/-- A storage with a list of registers in a file. -/
def boardFile (members : List (String × Tree)) : Storage :=
  Storage.empty.write "csr.json" { bytes := (boardTree members).compact.toUTF8.data.toList }

theorem readText_boardFile : (boardFile members).readText "csr.json" = .ok (boardTree members).compact := by
  have bytes : (boardFile members).readBytes "csr.json" = .ok (boardTree members).compact.toUTF8.data.toList := rfl
  rw [Storage.readText, bytes, Text.toUTF8_eq]
  simp only [bind, Except.bind, Text.ofBytes?_encode, String.ofList_toList]
  rfl

theorem Plain.decode_compact (plain : Plain members) :
    Json.decode Json.readAny (boardTree members).compact = .ok (boardTree members) := by
  have kept : (boardTree members).isKept Json.Place.top.levels = true := by
    have inside : Tree.haveKept 125 members = true := plain.haveKept (by decide)
    simp only [boardTree, Tree.isKept, Tree.haveKept, Json.Place.top, inside]
    decide
  have writable : (boardTree members).Writable := ⟨plain.writable, trivial⟩
  rw [Json.decode_compact _ writable, Json.readAny, if_pos kept]

theorem Plain.listedIn (plain : Plain members) : ListedIn (boardFile members) "csr.json" members :=
  ⟨_, _, readText_boardFile, plain.decode_compact, rfl⟩

theorem Plain.load? (plain : Plain members) (ok : ofRegisterList? (boardTree members) = .ok m) :
    RegisterMap.load? (boardFile members) "csr.json" = .ok m :=
  load?_eq_ok_iff.2 ⟨_, _, readText_boardFile, plain.decode_compact, ok⟩

/-- **When a map is of one instance.** The addresses of a map that is loaded belong to one instance exactly if one
prefix tells the five addresses at the foremost names. Among separate instances a complete first instance is enough, and
where every register has an address of its own there is no other way. -/
theorem one_instance_iff (s : Storage) (path : String) (m : RegisterMap) (loaded : load? s path = .ok m) :
    ∃ members, ListedIn s path members
      ∧ (OfOneInstance members m ↔ ∃ p : String, ∀ suffix ∈ suffixes, ∃ name n, Foremost members suffix name
        ∧ RegisterAt members name n ∧ RegisterAt members (p ++ suffix) n)
      ∧ (Apart members → ∀ p, FirstInstance members p → Complete members p →
        ∀ x ∈ m.bySuffix, RegisterAt members (p ++ x.1) x.2.toNat)
      ∧ (Apart members → OwnAddresses members →
        (OfOneInstance members m ↔ ∃ p, FirstInstance members p ∧ Complete members p)) := by
  obtain ⟨members, listed, found⟩ := exists_listedIn loaded
  exact ⟨members, listed, found.ofOneInstance_iff, fun apart p first complete => found.registerAt apart first complete,
    fun apart own => found.ofOneInstance_iff_of_apart apart own⟩

/-- Two complete instances, one behind the other. -/
theorem one_instance_iff_two :
    let members := listing "rx_" (ofBase 0x3000) ++ listing "tx_" (ofBase 0x4000)
    load? (boardFile members) "csr.json" = .ok (ofBase 0x3000) ∧ ListedIn (boardFile members) "csr.json" members
      ∧ OfOneInstance members (ofBase 0x3000) := by
  intro members
  have plain : Plain members := (plain_listing _ _).append (plain_listing _ _)
  have loaded : load? (boardFile members) "csr.json" = .ok (ofBase 0x3000) := plain.load? (by decide +kernel)
  obtain ⟨others, listed, -, complete, -⟩ := one_instance_iff _ _ _ loaded
  obtain rfl := plain.listedIn.unique listed
  have prefixes : ∀ q, Instance members q → q = "rx_" ∨ q = "tx_" := by
    rintro q ⟨suffix, mem, named⟩
    have ending := endingIn_of_mem named
    rw [endingIn_append, endingIn_listing mem, endingIn_listing mem] at ending
    exact ending.imp (String.append_left_inj suffix).1 (String.append_left_inj suffix).1
  have apart : Apart members := by
    intro p q one other begins
    rcases prefixes p one with rfl | rfl <;> rcases prefixes q other with rfl | rfl
    · rfl
    · exact absurd begins (by decide)
    · exact absurd begins (by decide)
    · rfl
  have rx : ∀ suffix ∈ suffixes, "rx_" ++ suffix ∈ members.map Prod.fst := by decide +kernel
  refine ⟨loaded, plain.listedIn, "rx_", complete apart "rx_" ⟨⟨_, List.mem_cons_self, rx _ List.mem_cons_self⟩, ?_⟩ rx⟩
  intro q found
  rcases prefixes q found with rfl | rfl
  · exact le_rfl
  · decide

/-- An instance with one register only goes in front of a complete one. -/
theorem not_forall_one_instance : ¬∀ (s : Storage) (path : String) (m : RegisterMap), load? s path = .ok m →
    ∃ members, ListedIn s path members ∧ OfOneInstance members m := by
  intro all
  let members := listing "rx_" (ofBase 0x3000) ++ [entryAt "aux_" ("fir_cfg", 0x2000)]
  have plain : Plain members := (plain_listing _ _).append (plain_entryAt _ _)
  have loaded : load? (boardFile members) "csr.json" = .ok { ofBase 0x3000 with cfg := 0x2000 } :=
    plain.load? (by decide +kernel)
  obtain ⟨others, listed, p, each⟩ := all _ _ _ loaded
  obtain rfl := plain.listedIn.unique listed
  -- only one instance has a decimation register
  obtain rfl : p = "rx_" := by
    have ending := endingIn_of_mem (each ("fir_decimation", 0x3004) (by decide +kernel)).named
    rw [endingIn_append, endingIn_listing (by decide)] at ending
    rcases ending with rx | ⟨named, ending⟩
    · exact (String.append_left_inj _).1 rx
    · rw [List.mem_singleton.1 named] at ending
      exact absurd ending (by decide +kernel)
  have found := each ("fir_cfg", 0x2000) (by decide +kernel)
  have told : RegisterAt members "rx_fir_cfg" 0x3000 :=
    (registerAt_append (by decide +kernel)).2 (registerAt_listing (x := ("fir_cfg", 0x3000)) (by decide +kernel))
  exact absurd (told.unique found) (by decide)

end RegisterMap

end Panadapter
