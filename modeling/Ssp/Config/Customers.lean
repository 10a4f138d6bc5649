import Mathlib.Data.List.Find
import Mathlib.Data.Multiset.Basic
import Ssp.Config.Document

/-!
# Customers and their numbers

A customer is looked up by the number that was dialled. The lists of the document go into
sets of `Dnis_t`, where a block is a start and a count of the last four digits. Two things
are lost on the way: a block that runs beyond the last four digits ends there, and of several
entries of a list that start alike only the first one counts.

What is found is always right; `customers_iff` says when something is found.
-/

namespace Ssp

/-- Ten digits. -/
def TenDigits (s : Bytes) : Prop := s.length = 10 ∧ ∀ c ∈ s, c.isDigit = true

instance (s : Bytes) : Decidable (TenDigits s) :=
  decidable_of_iff (s.length = 10 ∧ s.all Char.isDigit = true) (and_congr_right fun _ => List.all_eq_true)

/-- The number that is written in a text. -/
abbrev number (s : Bytes) : ℕ := leadingDigits s

namespace DnisEntry

/-- The first number of an entry. -/
def first : DnisEntry → Bytes
  | dnis text => text
  | block first _ => first

/-- An entry of ten digits, or a block of such numbers in order. -/
def WellFormed : DnisEntry → Prop
  | dnis text => TenDigits text
  | block first last => TenDigits first ∧ TenDigits last ∧ number first ≤ number last

instance (e : DnisEntry) : Decidable e.WellFormed :=
  match e with
  | dnis text => inferInstanceAs (Decidable (TenDigits text))
  | block _ _ => inferInstanceAs (Decidable (_ ∧ _ ∧ _))

/-- An entry says that a number belongs to its customer. -/
def Covers (e : DnisEntry) (d : Bytes) : Prop :=
  match e with
  | dnis text => text = d
  | block first last => number first ≤ number d ∧ number d ≤ number last

/-- A number is the first one of an entry, or it has the first six digits of it, and its last
    four are not beyond those of the last one. -/
def Reaches (e : DnisEntry) (d : Bytes) : Prop :=
  match e with
  | dnis text => text = d
  | block first last => first = d ∨
      number first / 10 ^ 4 = number d / 10 ^ 4 ∧ number first ≤ number d ∧ number d % 10 ^ 4 ≤ number last % 10 ^ 4

instance (e : DnisEntry) (d : Bytes) : Decidable (e.Covers d) :=
  match e with
  | dnis _ => inferInstanceAs (Decidable (_ = _))
  | block _ _ => inferInstanceAs (Decidable (_ ∧ _))

instance (e : DnisEntry) (d : Bytes) : Decidable (e.Reaches d) :=
  match e with
  | dnis _ => inferInstanceAs (Decidable (_ = _))
  | block _ _ => inferInstanceAs (Decidable (_ ∨ _))

/-- The first one of the entries that start with its number. -/
def IsFirst (e : DnisEntry) (entries : List DnisEntry) : Prop :=
  entries.find? (fun e' => e'.first = e.first) = some e

instance (e : DnisEntry) (entries : List DnisEntry) : Decidable (e.IsFirst entries) :=
  inferInstanceAs (Decidable (_ = _))

theorem WellFormed.first {e : DnisEntry} (h : e.WellFormed) : TenDigits e.first := by
  cases e with
  | dnis text => exact h
  | block first last => exact h.1

end DnisEntry

namespace SspConfig.Impl

/-- The lists in an order in which they may be iterated over. -/
def Iterates (customers : List (Bytes × List Dnis)) (m : CustomerDnisMap) : Prop :=
  (customers.map fun c => (c.1, (c.2 : Multiset Dnis))).Perm
    (m.elems.map fun c => (c.1, (c.2.elems : Multiset Dnis)))

/-- A number has a customer. -/
def Owned (t : Ptree) (d : Bytes) (customer : Bytes) : Prop :=
  ∃ list ∈ t.dnisLists, list.1 = customer ∧ ∃ e ∈ list.2, e.Covers d

/-- In whatever order the lists are iterated over, a customer is found exactly if there is
    one, and it is one. -/
def FindsCustomer (t : Ptree) (cfg : Impl) (d : Bytes) : Prop :=
  ∀ customers, Iterates customers cfg.mapCustomerDnis →
    ((getCustomer customers d).isSome = true ↔ ∃ customer, Owned t d customer) ∧
      ∀ customer ∈ getCustomer customers d, Owned t d customer

end SspConfig.Impl

/-! ## Numbers in three parts -/

/-- Ten digits are three digits, three and four. -/
theorem TenDigits.parts {s : Bytes} (h : TenDigits s) :
    ∃ npa nxx xxxx, s = npa ++ (nxx ++ xxxx) ∧ npa.length = 3 ∧ nxx.length = 3 ∧ xxxx.length = 4 := by
  refine ⟨s.take 3, (s.drop 3).take 3, s.drop 6, ?_, ?_, ?_, ?_⟩
  · rw [← List.drop_drop (i := 3) (j := 3), List.take_append_drop, List.take_append_drop]
  · rw [List.length_take, h.1]
    rfl
  · rw [List.length_take, List.length_drop, h.1]
    rfl
  · rw [List.length_drop, h.1]

namespace Dnis

variable {s d : Bytes}

theorem ofText_parts {npa nxx xxxx : Bytes} (hnpa : npa.length = 3) (hnxx : nxx.length = 3)
    (hxxxx : xxxx.length = 4) :
    ofText (npa ++ (nxx ++ xxxx)) = { npa := atoi npa, nxx := atoi nxx, xxxx := atoi xxxx } := by
  have hlen : (npa ++ (nxx ++ xxxx)).length = 10 := by
    rw [List.length_append, List.length_append, hnpa, hnxx, hxxxx]
  have hxxxx' : (npa ++ (nxx ++ xxxx)).drop 6 = xxxx := by
    rw [← List.append_assoc]
    exact List.drop_left' (by rw [List.length_append, hnpa, hnxx])
  have hnxx' : ((npa ++ (nxx ++ xxxx)).drop 3).take 3 = nxx := by rw [List.drop_left' hnpa, List.take_left' hnxx]
  have hnpa' : (npa ++ (nxx ++ xxxx)).take 3 = npa := List.take_left' hnpa
  simp [ofText, hlen, hnpa', hnxx', hxxxx']

/-- The value of ten digits comes from the values of the parts. -/
theorem number_eq (h : TenDigits s) :
    number s = 10 ^ 7 * (ofText s).npa.toNat + 10 ^ 4 * (ofText s).nxx.toNat + (ofText s).xxxx.toNat ∧
      (ofText s).nxx.toNat < 10 ^ 3 ∧ (ofText s).xxxx.toNat < 10 ^ 4 := by
  obtain ⟨npa, nxx, xxxx, rfl, hnpa, hnxx, hxxxx⟩ := h.parts
  obtain ⟨hnpa', hrest⟩ := List.forall_mem_append.1 h.2
  obtain ⟨hnxx', hxxxx'⟩ := List.forall_mem_append.1 hrest
  have hatoi : ∀ part : Bytes, 3 ≤ part.length → part.length ≤ 4 → (∀ c ∈ part, c.isDigit = true) →
      (atoi part).toNat = leadingDigits part := by
    intro part hge hle hpart
    have hlt := leadingDigits_lt hpart
    have hpow : 10 ^ part.length ≤ 10 ^ 4 := Nat.pow_le_pow_right (by decide) hle
    exact (toNat_atoi_eq_iff ⟨List.ne_nil_of_length_pos (by omega), hpart⟩).2 (by omega)
  rw [ofText_parts hnpa hnxx hxxxx]
  dsimp only
  rw [hatoi npa (by omega) (by omega) hnpa', hatoi nxx (by omega) (by omega) hnxx',
    hatoi xxxx (by omega) (by omega) hxxxx', number, leadingDigits_append hnpa' hrest,
    leadingDigits_append hnxx' hxxxx', List.length_append, hnxx, hxxxx]
  have hnxxlt := leadingDigits_lt hnxx'
  have hxxxxlt := leadingDigits_lt hxxxx'
  rw [hnxx] at hnxxlt
  rw [hxxxx] at hxxxxlt
  exact ⟨by omega, hnxxlt, hxxxxlt⟩

/-- The first six digits, and the last four. -/
theorem start_eq_iff (hs : TenDigits s) (hd : TenDigits d) :
    ((ofText s).npa = (ofText d).npa ∧ (ofText s).nxx = (ofText d).nxx ↔ number s / 10 ^ 4 = number d / 10 ^ 4) ∧
      (ofText s).xxxx.toNat = number s % 10 ^ 4 := by
  obtain ⟨hsn, hsnxx, hsxxxx⟩ := number_eq hs
  obtain ⟨hdn, hdnxx, hdxxxx⟩ := number_eq hd
  rw [← UInt32.toNat_inj, ← UInt32.toNat_inj]
  omega

theorem number_inj (hs : TenDigits s) (hd : TenDigits d) : number s = number d ↔ s = d :=
  leadingDigits_inj hs.2 hd.2 (hs.1.trans hd.1.symm)

/-- Texts of ten digits have different starts. -/
theorem start_inj (hs : TenDigits s) (hd : TenDigits d) : (ofText s).start = (ofText d).start ↔ s = d := by
  refine ⟨fun h => (number_inj hs hd).1 ?_, fun h => h ▸ rfl⟩
  obtain ⟨hnpa, hrest⟩ := Prod.mk.inj h
  obtain ⟨hnxx, hxxxx⟩ := Prod.mk.inj hrest
  rw [(number_eq hs).1, (number_eq hd).1, hnpa, hnxx, hxxxx]

theorem toNat_add_one {n : UInt32} (h : n.toNat < 10 ^ 4) : (n + 1).toNat = n.toNat + 1 := by
  rw [UInt32.toNat_add]
  exact Nat.mod_eq_of_lt (by rw [UInt32.toNat_one]; omega)

/-- The first number of a block of numbers starts it. -/
theorem start_ofBlock (firstDnis lastDnis : Bytes) : (ofBlock firstDnis lastDnis).start = (ofText firstDnis).start := by
  unfold ofBlock
  dsimp only
  split_ifs <;> rfl

/-- The count of a block ends with the last four digits of its last number. -/
theorem matchesOrContains_ofBlock {firstDnis lastDnis : Bytes} (hfirst : TenDigits firstDnis)
    (hlast : TenDigits lastDnis) (hd : TenDigits d) :
    (ofBlock firstDnis lastDnis).matchesOrContains (ofText d) = true ↔
      firstDnis = d ∨ number firstDnis / 10 ^ 4 = number d / 10 ^ 4 ∧ number firstDnis ≤ number d ∧
        number d % 10 ^ 4 ≤ number lastDnis % 10 ^ 4 := by
  obtain ⟨hstart, hxxxx⟩ := start_eq_iff hfirst hd
  have hlastxxxx := (start_eq_iff hlast hd).2
  have hdxxxx := (start_eq_iff hd hd).2
  have hlt : number lastDnis % 10 ^ 4 < 10 ^ 4 := Nat.mod_lt _ (by decide)
  rw [← number_inj hfirst hd]
  unfold ofBlock matchesOrContains
  dsimp only
  rw [decide_eq_true_iff, ← and_assoc]
  split_ifs with hgt
  · dsimp only
    rw [gt_iff_lt, UInt32.lt_iff_toNat_lt] at hgt
    have hcount : ((ofText firstDnis).xxxx + ((ofText lastDnis).xxxx - (ofText firstDnis).xxxx + 1)).toNat =
        (ofText lastDnis).xxxx.toNat + 1 := by
      rw [← UInt32.add_assoc, UInt32.add_comm (ofText firstDnis).xxxx, UInt32.sub_add_cancel]
      exact toNat_add_one (hlastxxxx ▸ hlt)
    rw [hstart, ← UInt32.toNat_inj, UInt32.lt_iff_toNat_lt, gt_iff_lt, UInt32.lt_iff_toNat_lt, hcount]
    omega
  · rw [gt_iff_lt, UInt32.lt_iff_toNat_lt] at hgt
    have hcount : ((ofText firstDnis).xxxx + (ofText firstDnis).count).toNat = (ofText firstDnis).xxxx.toNat + 1 :=
      toNat_add_one (hxxxx ▸ Nat.mod_lt _ (by decide))
    rw [hstart, ← UInt32.toNat_inj, UInt32.lt_iff_toNat_lt, gt_iff_lt, UInt32.lt_iff_toNat_lt, hcount]
    omega

end Dnis

namespace DnisEntry

variable {e : DnisEntry} {entries : List DnisEntry} {d : Bytes}

theorem start_toDnis (e : DnisEntry) : e.toDnis.start = (Dnis.ofText e.first).start := by
  cases e with
  | dnis text => rfl
  | block first last => exact Dnis.start_ofBlock first last

/-- **What an entry contains**, of its set. -/
theorem matchesOrContains_toDnis (he : e.WellFormed) (hd : TenDigits d) :
    e.toDnis.matchesOrContains (.ofText d) = true ↔ e.Reaches d := by
  cases e with
  | dnis text =>
    -- A number is a block of its own.
    have hblock := Dnis.matchesOrContains_ofBlock he he hd
    have hself : Dnis.ofBlock text text = .ofText text := if_neg (UInt32.lt_irrefl _)
    rw [hself] at hblock
    refine hblock.trans ⟨?_, .inl⟩
    rintro (heq | ⟨hdiv, hge, hmod⟩)
    · exact heq
    · refine (Dnis.number_inj he hd).1 ?_
      omega
  | block first last => exact Dnis.matchesOrContains_ofBlock he.1 he.2.1 hd

/-- An entry reaches no number that it does not cover. -/
theorem Reaches.covers (he : e.WellFormed) (h : e.Reaches d) : e.Covers d := by
  cases e with
  | dnis text => exact h
  | block first last =>
    obtain ⟨hfirst, hlast, hle⟩ := he
    rcases h with rfl | ⟨hdiv, hge, hmod⟩
    · exact ⟨le_refl _, hle⟩
    · refine ⟨hge, ?_⟩
      omega

/-- **What a set of entries contains**: the numbers that entries reach that are the first ones
    with their starts. -/
theorem exists_matches_iff (hentries : ∀ e ∈ entries, e.WellFormed) (hd : TenDigits d) :
    (∃ dnis ∈ (KeyedSet.insertAll {} (entries.map toDnis) : KeyedSet Dnis.start).elems,
      dnis.matchesOrContains (.ofText d) = true) ↔ ∃ e ∈ entries, e.IsFirst entries ∧ e.Reaches d := by
  have hfind : ∀ e : DnisEntry, e.WellFormed → (entries.map toDnis).find? (fun dnis => dnis.start = e.toDnis.start) =
      (entries.find? fun e' => e'.first = e.first).map toDnis := by
    intro e he
    rw [List.find?_map]
    refine congrArg (Option.map toDnis) (List.find?_congr fun e' he' => decide_eq_decide.2 ?_)
    rw [start_toDnis, start_toDnis]
    exact Dnis.start_inj (hentries e' he').first he.first
  constructor
  · rintro ⟨dnis, hdnis, hmatch⟩
    have hfirst := KeyedSet.mem_insertAll_iff.1 hdnis
    obtain ⟨e, he, rfl⟩ := List.mem_map.1 (List.mem_of_find?_eq_some hfirst)
    rw [hfind e (hentries e he)] at hfirst
    -- The first entry with this start is in the set as the same numbers.
    obtain ⟨e', he', heq⟩ := Option.map_eq_some_iff.1 hfirst
    have hstart : e'.first = e.first := by simpa using List.find?_some he'
    have hmem := List.mem_of_find?_eq_some he'
    refine ⟨e', hmem, ?_, (matchesOrContains_toDnis (hentries e' hmem) hd).1 (heq ▸ hmatch)⟩
    rw [IsFirst, hstart]
    exact he'
  · rintro ⟨e, he, hfirst, hreaches⟩
    refine ⟨e.toDnis, KeyedSet.mem_insertAll_iff.2 ?_, (matchesOrContains_toDnis (hentries e he) hd).2 hreaches⟩
    rw [hfind e (hentries e he), hfirst]
    rfl

end DnisEntry

namespace SspConfig.Impl

variable {t : Ptree} {cfg : Impl} {d : Bytes}

/-- The lists of the document are well-formed. -/
def DnisListsWellFormed (t : Ptree) : Prop := ∀ list ∈ t.dnisLists, ∀ e ∈ list.2, e.WellFormed

/-- A customer that is found has a set with the number in it. -/
theorem getCustomer_eq_some {customers : List (Bytes × List Dnis)} {customer : Bytes}
    (h : getCustomer customers d = some customer) :
    ∃ c ∈ customers, c.1 = customer ∧ ∃ dnis ∈ c.2, dnis.matchesOrContains (.ofText d) = true := by
  obtain ⟨c, hc, hname⟩ := Option.map_eq_some_iff.1 h
  have hany : (c.2.any fun dnis => dnis.matchesOrContains (.ofText d)) = true := by simpa using List.find?_some hc
  exact ⟨c, List.mem_of_find?_eq_some hc, hname, List.any_eq_true.1 hany⟩

theorem isSome_getCustomer_iff {customers : List (Bytes × List Dnis)} :
    (getCustomer customers d).isSome = true ↔
      ∃ c ∈ customers, ∃ dnis ∈ c.2, dnis.matchesOrContains (.ofText d) = true := by
  unfold getCustomer
  rw [Option.isSome_map, List.find?_isSome]
  simp only [List.any_eq_true]

/-- The sets that are iterated over are those of the table, in some order. -/
theorem Iterates.mem_iff {customers : List (Bytes × List Dnis)} {m : CustomerDnisMap}
    (h : Iterates customers m) (name : Bytes) (dnis : Dnis) :
    (∃ c ∈ customers, c.1 = name ∧ dnis ∈ c.2) ↔ ∃ c ∈ m.elems, c.1 = name ∧ dnis ∈ c.2.elems := by
  have hmem := fun c : Bytes × Multiset Dnis => List.Perm.mem_iff (a := c) h
  simp only [List.mem_map] at hmem
  constructor
  · rintro ⟨c, hc, rfl, hdnis⟩
    obtain ⟨c', hc', heq⟩ := (hmem _).1 ⟨c, hc, rfl⟩
    obtain ⟨hname, hset⟩ := Prod.mk.inj heq
    exact ⟨c', hc', hname, Multiset.mem_coe.1 (hset ▸ Multiset.mem_coe.2 hdnis)⟩
  · rintro ⟨c, hc, rfl, hdnis⟩
    obtain ⟨c', hc', heq⟩ := (hmem _).2 ⟨c, hc, rfl⟩
    obtain ⟨hname, hset⟩ := Prod.mk.inj heq
    exact ⟨c', hc', hname, Multiset.mem_coe.1 (hset ▸ Multiset.mem_coe.2 hdnis)⟩

theorem iterates_self (m : CustomerDnisMap) : Iterates (m.elems.map fun c => (c.1, c.2.elems)) m := by
  unfold Iterates
  rw [List.map_map]
  exact .refl _

/-- **The sets that contain a number** are those of the lists in which an entry reaches it that
    is the first one with its start. -/
theorem iterated_iff (hload : load t = .ok cfg) (hlists : DnisListsWellFormed t) (hd : TenDigits d)
    {customers : List (Bytes × List Dnis)} (horder : Iterates customers cfg.mapCustomerDnis) (name : Bytes) :
    (∃ c ∈ customers, c.1 = name ∧ ∃ dnis ∈ c.2, dnis.matchesOrContains (.ofText d) = true) ↔
      ∃ list ∈ t.dnisLists, list.1 = name ∧ ∃ e ∈ list.2, e.IsFirst list.2 ∧ e.Reaches d := by
  have hmem := horder.mem_iff name
  rw [(load_ok hload).2.1] at hmem
  constructor
  · rintro ⟨c, hc, hname, dnis, hdnis, hmatch⟩
    obtain ⟨c', hc', hname', hdnis'⟩ := (hmem dnis).1 ⟨c, hc, hname, hdnis⟩
    obtain ⟨list, hlist, rfl⟩ := List.mem_map.1 hc'
    exact ⟨list, hlist, hname', (DnisEntry.exists_matches_iff (hlists list hlist) hd).1 ⟨dnis, hdnis', hmatch⟩⟩
  · rintro ⟨list, hlist, hname, hentry⟩
    obtain ⟨dnis, hdnis, hmatch⟩ := (DnisEntry.exists_matches_iff (hlists list hlist) hd).2 hentry
    obtain ⟨c, hc, hname', hdnis'⟩ := (hmem dnis).2 ⟨_, List.mem_map_of_mem hlist, hname, hdnis⟩
    exact ⟨c, hc, hname', dnis, hdnis', hmatch⟩

/-- A customer that is found has the number, in whatever order the lists are iterated over. -/
theorem owned_of_getCustomer (hload : load t = .ok cfg) (hlists : DnisListsWellFormed t) (hd : TenDigits d)
    {customers : List (Bytes × List Dnis)} (horder : Iterates customers cfg.mapCustomerDnis) {customer : Bytes}
    (h : getCustomer customers d = some customer) : Owned t d customer := by
  obtain ⟨list, hlist, hname, e, he, -, hreaches⟩ :=
    (iterated_iff hload hlists hd horder customer).1 (getCustomer_eq_some h)
  exact ⟨list, hlist, hname, e, he, hreaches.covers (hlists list hlist e he)⟩

/-- **Customers are found** for a number, as the document says, exactly if no entry covers it
    or some entry reaches it that is the first one with its start in its list. -/
theorem customers_iff (hload : load t = .ok cfg) (hlists : DnisListsWellFormed t) (hd : TenDigits d) :
    FindsCustomer t cfg d ↔
      ((∃ list ∈ t.dnisLists, ∃ e ∈ list.2, e.Covers d) →
        ∃ list ∈ t.dnisLists, ∃ e ∈ list.2, e.IsFirst list.2 ∧ e.Reaches d) := by
  have howned : (∃ customer, Owned t d customer) ↔ ∃ list ∈ t.dnisLists, ∃ e ∈ list.2, e.Covers d :=
    ⟨fun ⟨_, list, hlist, _, h⟩ => ⟨list, hlist, h⟩, fun ⟨list, hlist, h⟩ => ⟨_, list, hlist, rfl, h⟩⟩
  have hfound : ∀ {customers}, Iterates customers cfg.mapCustomerDnis →
      ((getCustomer customers d).isSome = true ↔
        ∃ list ∈ t.dnisLists, ∃ e ∈ list.2, e.IsFirst list.2 ∧ e.Reaches d) := by
    intro customers horder
    rw [isSome_getCustomer_iff]
    constructor
    · rintro ⟨c, hc, hmatch⟩
      obtain ⟨list, hlist, -, h⟩ := (iterated_iff hload hlists hd horder c.1).1 ⟨c, hc, rfl, hmatch⟩
      exact ⟨list, hlist, h⟩
    · rintro ⟨list, hlist, h⟩
      obtain ⟨c, hc, -, hmatch⟩ := (iterated_iff hload hlists hd horder list.1).2 ⟨list, hlist, rfl, h⟩
      exact ⟨c, hc, hmatch⟩
  constructor
  · intro h hcovered
    have horder := iterates_self cfg.mapCustomerDnis
    exact (hfound horder).1 ((h _ horder).1.2 (howned.2 hcovered))
  · intro h customers horder
    have hsound : ∀ customer, getCustomer customers d = some customer → Owned t d customer :=
      fun _ hc => owned_of_getCustomer hload hlists hd horder hc
    refine ⟨⟨fun hsome => ?_, fun hcustomer => (hfound horder).2 (h (howned.1 hcustomer))⟩, hsound⟩
    obtain ⟨customer, hcustomer⟩ := Option.isSome_iff_exists.1 hsome
    exact ⟨customer, hsound customer hcustomer⟩

/-- A document with a list of one block. -/
def blockDocument (first last : String) : Ptree :=
  .document [] [Ptree.element "dnis-list" [("name", "acme")] ""
    [Ptree.element "dnis-block" [] "" [Ptree.element "first" [] first [], Ptree.element "last" [] last []]]]

instance (t : Ptree) : Decidable (DnisListsWellFormed t) := inferInstanceAs (Decidable (∀ list ∈ t.dnisLists, _))

theorem findsCustomer_block :
    ∃ cfg, load (blockDocument "6175551000" "6175551999") = .ok cfg ∧
      FindsCustomer (blockDocument "6175551000" "6175551999") cfg "6175551234".toList := by
  obtain ⟨cfg, hload⟩ := exists_load (t := blockDocument "6175551000" "6175551999") (by decide)
  refine ⟨cfg, hload, (customers_iff hload (by decide) (by decide)).2 fun _ => ?_⟩
  decide

/-- A block of numbers in two exchanges: those in the second one have no customer. -/
theorem not_findsCustomer_exchanges :
    ¬∀ (t : Ptree) (cfg : Impl) (d : Bytes), load t = .ok cfg → DnisListsWellFormed t → TenDigits d →
      FindsCustomer t cfg d := by
  intro h
  obtain ⟨cfg, hload⟩ := exists_load (t := blockDocument "2125559990" "2125560010") (by decide)
  have hlists : DnisListsWellFormed (blockDocument "2125559990" "2125560010") := by decide
  have hd : TenDigits "2125560000".toList := by decide
  have howned : ∃ list ∈ (blockDocument "2125559990" "2125560010").dnisLists,
      ∃ e ∈ list.2, e.Covers "2125560000".toList := by decide
  obtain ⟨list, hlist, hcovers⟩ := howned
  have horder := iterates_self cfg.mapCustomerDnis
  have hsome := (h _ cfg _ hload hlists hd _ horder).1.2 ⟨list.1, list, hlist, rfl, hcovers⟩
  obtain ⟨c, hc, hmatch⟩ := isSome_getCustomer_iff.1 hsome
  obtain ⟨list', hlist', -, hreached⟩ := (iterated_iff hload hlists hd horder c.1).1 ⟨c, hc, rfl, hmatch⟩
  have hnone : ¬∃ list ∈ (blockDocument "2125559990" "2125560010").dnisLists,
      ∃ e ∈ list.2, e.IsFirst list.2 ∧ e.Reaches "2125560000".toList := by decide
  exact hnone ⟨list', hlist', hreached⟩

end SspConfig.Impl

end Ssp
