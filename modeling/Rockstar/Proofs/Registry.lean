import Rockstar.Proofs.PlainNumber
import Rockstar.Slot

/-!
# Registries, pools and slot tables

The index of a registry and its entries are inverse to each other (`Registry.Keyed`), and entries
are only ever added behind the others (`Registry.Grows`). Both facts hold of the constant pool and
of the slot table, which are registries with one more condition each: all numbers of a pool are
plain, and all slots of a table may hold values of every kind.
-/

namespace Rockstar

/-- What stands in an array stands at the same place in every array that continues it. -/
theorem getElem?_of_prefix {α : Type} {a b : Array α} (h : a.toList <+: b.toList) {i : Nat} {v : α}
    (hi : a[i]? = some v) : b[i]? = some v := by
  rw [← Array.getElem?_toList] at hi ⊢
  have hlt : i < a.toList.length := (List.getElem?_eq_some_iff.mp hi).1
  obtain ⟨more, hmore⟩ := h
  rw [← hmore, List.getElem?_append_left hlt]
  exact hi

namespace Registry

variable {κ : Type} [Ord κ] {α : Type}

/-- The index finds a key exactly where the entry with that key stands. -/
def Keyed (keyOf : α → κ) (r : Registry κ α) : Prop :=
  ∀ key i, r.find? key = some i ↔ ∃ entry, r.get? i = some entry ∧ keyOf entry = key

/-- All entries of the first registry stand at the same place in the second. -/
def Grows (r r' : Registry κ α) : Prop := r.entries.toList <+: r'.entries.toList

theorem Grows.refl (r : Registry κ α) : r.Grows r := List.prefix_refl _

theorem Grows.trans {r r' r'' : Registry κ α} (h : r.Grows r') (h' : r'.Grows r'') :
    r.Grows r'' :=
  List.IsPrefix.trans h h'

theorem Grows.size_le {r r' : Registry κ α} (h : r.Grows r') : r.size ≤ r'.size := by
  simpa [size] using List.IsPrefix.length_le h

theorem Grows.get? {r r' : Registry κ α} (h : r.Grows r') {i : Nat} {entry : α}
    (hi : r.get? i = some entry) : r'.get? i = some entry :=
  getElem?_of_prefix h hi

theorem lt_size_of_get? {r : Registry κ α} {i : Nat} {entry : α} (h : r.get? i = some entry) :
    i < r.size := by
  unfold Registry.get? at h
  exact (Array.getElem?_eq_some_iff.mp h).1

theorem grows_push (r : Registry κ α) (key : κ) (entry : α) : r.Grows (r.push key entry) := by
  simp [Grows, push]

theorem size_push (r : Registry κ α) (key : κ) (entry : α) :
    (r.push key entry).size = r.size + 1 := by
  simp [size, push]

theorem get?_push (r : Registry κ α) (key : κ) (entry : α) (i : Nat) :
    (r.push key entry).get? i = if i = r.size then some entry else r.get? i := by
  unfold Registry.get? push
  rw [Array.getElem?_push]
  rfl

theorem find?_push [Std.TransOrd κ] [Std.LawfulEqOrd κ] [DecidableEq κ] (r : Registry κ α)
    (key : κ) (entry : α) (other : κ) :
    (r.push key entry).find? other = if key = other then some r.size else r.find? other := by
  simp [find?, push, Std.TreeMap.getElem?_insert]

theorem grows_enter (r : Registry κ α) (key : κ) (entry : α) :
    r.Grows (r.enter key entry).2 := by
  unfold enter
  split
  · exact .refl r
  · exact grows_push r key entry

theorem keyed_empty [Std.TransOrd κ] (keyOf : α → κ) : (empty : Registry κ α).Keyed keyOf := by
  intro key i
  simp [find?, Registry.get?, empty]

/-- Entering a key adds at most the entry that goes with it. -/
theorem get?_enter {r : Registry κ α} {key : κ} {entry found : α} {i : Nat}
    (h : (r.enter key entry).2.get? i = some found) : r.get? i = some found ∨ found = entry := by
  unfold enter at h
  cases hfind : r.find? key with
  | some j =>
    rw [hfind] at h
    exact .inl h
  | none =>
    rw [hfind] at h
    simp only [get?_push] at h
    split at h
    · exact .inr (Option.some.inj h).symm
    · exact .inl h

variable {keyOf : α → κ}

/-- No two entries have one key. -/
theorem Keyed.nodup {r : Registry κ α} (h : r.Keyed keyOf) :
    (r.entries.toList.map keyOf).Nodup := by
  unfold List.Nodup
  rw [List.pairwise_map, List.pairwise_iff_getElem]
  intro i j hi hj hlt heq
  have hfirst : r.get? i = some r.entries.toList[i] := by
    simp [Registry.get?, Array.getElem?_eq_getElem hi]
  have hsecond : r.get? j = some r.entries.toList[j] := by
    simp [Registry.get?, Array.getElem?_eq_getElem hj]
  have hfound := (h _ i).mpr ⟨_, hfirst, heq⟩
  rw [(h _ j).mpr ⟨_, hsecond, rfl⟩] at hfound
  exact Nat.lt_irrefl i (Option.some.inj hfound ▸ hlt)

/-- The entries have the keys that were entered, each once and in the order in which they first
came. -/
structure Lists [BEq κ] (keyOf : α → κ) (r : Registry κ α) (keys : List κ) : Prop where
  keyed : r.Keyed keyOf
  keys_eq : r.entries.toList.map keyOf = keys.eraseDups

section Lists

variable [BEq κ] {r : Registry κ α} {keys : List κ}

theorem Lists.size_eq (h : r.Lists keyOf keys) : r.size = keys.eraseDups.length := by
  rw [← h.keys_eq, List.length_map]
  rfl

variable [LawfulBEq κ]

/-- The keys that are found are those that were entered. -/
theorem Lists.mem_iff (h : r.Lists keyOf keys) (key : κ) :
    key ∈ keys ↔ ∃ i, r.find? key = some i := by
  rw [← List.mem_eraseDups, ← h.keys_eq, List.mem_map]
  constructor
  · rintro ⟨entry, hentry, hkey⟩
    obtain ⟨i, hi⟩ := List.mem_iff_getElem?.mp hentry
    rw [Array.getElem?_toList] at hi
    exact ⟨i, (h.keyed key i).mpr ⟨entry, hi, hkey⟩⟩
  · rintro ⟨i, hi⟩
    obtain ⟨entry, hentry, hkey⟩ := (h.keyed key i).mp hi
    unfold Registry.get? at hentry
    rw [← Array.getElem?_toList] at hentry
    exact ⟨entry, List.mem_of_getElem? hentry, hkey⟩

/-- A key that is entered again adds nothing. -/
theorem Lists.again (h : r.Lists keyOf keys) {key : κ} {i : Nat} (hold : r.find? key = some i) :
    r.Lists keyOf (keys ++ [key]) := by
  have hmem : key ∈ keys := (h.mem_iff key).mpr ⟨i, hold⟩
  refine ⟨h.keyed, ?_⟩
  rw [h.keys_eq, List.eraseDups_append]
  simp [List.cons_removeAll, hmem]

end Lists

variable [Std.TransOrd κ] [Std.LawfulEqOrd κ] [DecidableEq κ]

/-- A new key is found behind all entries, and no other key moves. -/
theorem Keyed.push {r : Registry κ α} (h : r.Keyed keyOf) {entry : α}
    (hnew : r.find? (keyOf entry) = none) : (r.push (keyOf entry) entry).Keyed keyOf := by
  have habsent : ∀ i other, r.get? i = some other → keyOf other ≠ keyOf entry := by
    intro i other hother heq
    have hfound := (h (keyOf entry) i).mpr ⟨other, hother, heq⟩
    rw [hnew] at hfound
    cases hfound
  have hend : r.get? r.size = none := by simp [Registry.get?, size]
  intro key i
  rw [find?_push, get?_push]
  by_cases hkey : keyOf entry = key
  · subst hkey
    by_cases hi : i = r.size
    · simp [hi]
    -- an old entry with the new key cannot be, as the key was not found
    · have hi' : ¬r.size = i := fun heq => hi heq.symm
      simp only [if_true, Option.some.injEq, hi', hi, if_false, false_iff]
      rintro ⟨other, hother, heq⟩
      exact habsent i other hother heq
  · by_cases hi : i = r.size
    · subst hi
      have hnone := h key r.size
      rw [hend] at hnone
      simpa [hkey] using hnone
    · simpa [hkey, hi] using h key i

/-- Entering a key keeps the registry keyed, and the number returned is that of an entry with the
key. -/
theorem Keyed.enter {r : Registry κ α} (h : r.Keyed keyOf) (entry : α) :
    (r.enter (keyOf entry) entry).2.Keyed keyOf ∧
      ∃ found, (r.enter (keyOf entry) entry).2.get? (r.enter (keyOf entry) entry).1 = some found ∧
        keyOf found = keyOf entry := by
  unfold Registry.enter
  cases hfind : r.find? (keyOf entry) with
  | some i =>
    obtain ⟨found, hfound, hkey⟩ := (h (keyOf entry) i).mp hfind
    exact ⟨h, found, hfound, hkey⟩
  | none =>
    refine ⟨h.push hfind, entry, ?_, rfl⟩
    rw [get?_push, if_pos rfl]

/-- A new key is the last of the keys. -/
theorem Lists.push [BEq κ] [LawfulBEq κ] {r : Registry κ α} {keys : List κ}
    (h : r.Lists keyOf keys) {entry : α} (hnew : r.find? (keyOf entry) = none) :
    (r.push (keyOf entry) entry).Lists keyOf (keys ++ [keyOf entry]) := by
  have hmem : keyOf entry ∉ keys := by
    intro hmem
    obtain ⟨i, hi⟩ := (h.mem_iff _).mp hmem
    rw [hnew] at hi
    cases hi
  have hentries : (r.push (keyOf entry) entry).entries.toList = r.entries.toList ++ [entry] := by
    simp [Registry.push]
  refine ⟨h.keyed.push hnew, ?_⟩
  rw [hentries, List.map_append, h.keys_eq, List.eraseDups_append]
  simp [List.cons_removeAll, hmem, List.eraseDups_cons]

theorem Lists.enter [BEq κ] [LawfulBEq κ] {r : Registry κ α} {keys : List κ}
    (h : r.Lists keyOf keys) (entry : α) :
    (r.enter (keyOf entry) entry).2.Lists keyOf (keys ++ [keyOf entry]) := by
  unfold Registry.enter
  cases hfind : r.find? (keyOf entry) with
  | some i => exact h.again hfind
  | none => exact h.push hfind

end Registry

/-! ## Constant pools -/

/-- A constant whose number, if it is one, is plain. -/
def Constant.IsPlain : Constant → Prop
  | .number x => Decimal.IsPlain x
  | _ => True

/-- The key of a number begins with a tag, as the other keys do. -/
theorem Constant.exists_key_number (x : Float) : ∃ rest, (Constant.number x).key = 0 :: rest := by
  simp only [Constant.key]
  split <;> exact ⟨_, rfl⟩

/-- Plain constants with one key are one constant. -/
theorem Constant.eq_of_key_eq {c d : Constant} (hc : c.IsPlain) (hd : d.IsPlain)
    (h : c.key = d.key) : c = d := by
  -- constants of two kinds differ in the first number of their keys
  cases c with
  | number x =>
    cases d with
    | number y => rw [Rockstar.eq_of_key_eq hc hd h]
    | text t =>
      obtain ⟨rest, hx⟩ := exists_key_number x
      rw [hx] at h
      simp [Constant.key] at h
    | routine k =>
      obtain ⟨rest, hx⟩ := exists_key_number x
      rw [hx] at h
      simp [Constant.key] at h
  | text s =>
    cases d with
    | number y =>
      obtain ⟨rest, hy⟩ := exists_key_number y
      rw [hy] at h
      simp [Constant.key] at h
    | text t =>
      -- a text is spelled out in its key
      simp only [Constant.key, List.cons.injEq, true_and] at h
      rw [List.map_inj_right fun a b hab => Char.toNat_inj.mp hab] at h
      rw [String.toList_inj.mp h]
    | routine k => simp [Constant.key] at h
  | routine j =>
    cases d with
    | number y =>
      obtain ⟨rest, hy⟩ := exists_key_number y
      rw [hy] at h
      simp [Constant.key] at h
    | text t => simp [Constant.key] at h
    | routine k =>
      simp only [Constant.key, List.cons.injEq, true_and, and_true] at h
      rw [UInt64.toNat_inj.mp h]

namespace Pool

/-- A pool with a key for each constant and only plain numbers. -/
structure Wf (p : Pool) : Prop where
  keyed : p.table.Keyed Constant.key
  plain : ∀ i c, p.get? i = some c → c.IsPlain

theorem grows_add (p : Pool) (c : Constant) : p.table.Grows (p.add c).2.table :=
  Registry.grows_enter _ _ _

theorem wf_empty : Pool.empty.Wf where
  keyed := Registry.keyed_empty _
  plain := by
    intro i c h
    simp [Pool.empty, Pool.get?, Registry.get?, Registry.empty] at h

/-- Adding a plain constant keeps all numbers plain. -/
theorem Wf.plain_add {p : Pool} (h : p.Wf) {c : Constant} (hc : c.IsPlain) {i : Nat}
    {d : Constant} (hd : (p.add c).2.get? i = some d) : d.IsPlain := by
  rcases Registry.get?_enter hd with hold | rfl
  · exact h.plain i d hold
  · exact hc

/-- A constant that is added stands in the pool under the number returned, bit for bit. -/
theorem Wf.add {p : Pool} (h : p.Wf) {c : Constant} (hc : c.IsPlain) :
    (p.add c).2.Wf ∧ (p.add c).2.get? (p.add c).1 = some c := by
  obtain ⟨hkeyed, found, hfound, hkey⟩ := h.keyed.enter c
  have hfound' : (p.add c).2.get? (p.add c).1 = some found := hfound
  have hsame : found = c := Constant.eq_of_key_eq (h.plain_add hc hfound') hc hkey
  refine ⟨⟨hkeyed, fun i d hd => h.plain_add hc hd⟩, ?_⟩
  rw [hfound', hsame]

end Pool

/-! ## Slot tables -/

namespace SlotTable

/-- A table with a slot for each name, all of which may hold every kind of value. -/
structure Wf (t : SlotTable) : Prop where
  keyed : t.slots.Keyed Slot.name
  declared : ∀ i slot, t.get? i = some slot → slot.declared = .any
  size_le : t.size ≤ indexLimit

theorem wf_empty (owner : String) : (SlotTable.empty owner).Wf where
  keyed := Registry.keyed_empty _
  declared := by
    intro i slot h
    simp [SlotTable.empty, SlotTable.get?, Registry.get?, Registry.empty] at h
  size_le := Nat.zero_le _

theorem Wf.declared_getD {t : SlotTable} (h : t.Wf) (i : Nat) :
    ((t.get? i).map (·.declared)).getD .any = .any := by
  cases hslot : t.get? i with
  | none => rfl
  | some slot => exact h.declared i slot hslot

theorem Wf.lt_size {t : SlotTable} (h : t.Wf) {name : String} {i : Nat}
    (hi : t.find? name = some i) : i < t.size := by
  obtain ⟨slot, hslot, -⟩ := (h.keyed name i).mp hi
  exact Registry.lt_size_of_get? hslot

/-- Different variables have different slots. -/
theorem Wf.name_eq {t : SlotTable} (h : t.Wf) {a b : String} {i : Nat}
    (ha : t.find? a = some i) (hb : t.find? b = some i) : a = b := by
  obtain ⟨slot, hslot, rfl⟩ := (h.keyed a i).mp ha
  obtain ⟨slot', hslot', rfl⟩ := (h.keyed b i).mp hb
  rw [hslot] at hslot'
  rw [Option.some.inj hslot']

/-- What a request for a slot does when it succeeds: the variable has a slot already and nothing
changes, or it gets the next one. -/
theorem enter_cases {t t' : SlotTable} {name : String} {kinds : KindSet} {span : Span} {i : Nat}
    (h : t.enter name kinds span = (.ok i, t')) :
    (t.find? name = some i ∧ t' = t) ∨
      (t.find? name = none ∧ t.size < indexLimit ∧ i = t.size ∧
        t' = { t with slots := t.slots.push name ⟨t.size, name, kinds⟩ }) := by
  unfold SlotTable.enter at h
  cases hfind : t.find? name with
  | some j =>
    rw [hfind] at h
    simp only [Prod.mk.injEq, Except.ok.injEq] at h
    exact .inl ⟨by rw [h.1], h.2.symm⟩
  | none =>
    rw [hfind] at h
    dsimp only at h
    split at h
    next hlt =>
      simp only [Prod.mk.injEq, Except.ok.injEq] at h
      exact .inr ⟨rfl, hlt, h.1.symm, h.2.symm⟩
    next => simp at h

/-- A request for a slot that fails changes nothing. -/
theorem enter_error {t t' : SlotTable} {name : String} {kinds : KindSet} {span : Span}
    {e : CompileError} (h : t.enter name kinds span = (.error e, t')) : t' = t := by
  unfold SlotTable.enter at h
  cases hfind : t.find? name with
  | some j =>
    rw [hfind] at h
    simp at h
  | none =>
    rw [hfind] at h
    dsimp only at h
    split at h
    next => simp at h
    next =>
      simp only [Prod.mk.injEq, Except.error.injEq] at h
      exact h.2.symm

theorem grows_enter (t : SlotTable) (name : String) (kinds : KindSet) (span : Span) :
    t.slots.Grows (t.enter name kinds span).2.slots := by
  rcases h : t.enter name kinds span with ⟨result, t'⟩
  cases result with
  | error e => rw [enter_error h]; exact .refl _
  | ok i =>
    rcases enter_cases h with ⟨-, rfl⟩ | ⟨-, -, -, rfl⟩
    · exact .refl _
    · exact Registry.grows_push _ _ _

theorem Wf.enter {t t' : SlotTable} (hwf : t.Wf) {name : String} {span : Span} {i : Nat}
    (h : t.enter name .any span = (.ok i, t')) :
    t'.Wf ∧ i < indexLimit ∧
      ∀ other, t'.find? other = if other = name then some i else t.find? other := by
  rcases enter_cases h with ⟨hfind, rfl⟩ | ⟨hfind, hlt, rfl, rfl⟩
  · refine ⟨hwf, ?_, ?_⟩
    · exact Nat.lt_of_lt_of_le (hwf.lt_size hfind) hwf.size_le
    · intro other
      split
      next heq => rw [heq, hfind]
      next => rfl
  · refine ⟨⟨?_, ?_, ?_⟩, hlt, ?_⟩
    · let slot : Slot := ⟨t.size, name, .any⟩
      show (t.slots.push slot.name slot).Keyed Slot.name
      exact hwf.keyed.push hfind
    · intro j slot hslot
      unfold SlotTable.get? at hslot
      rw [Registry.get?_push] at hslot
      split at hslot
      · rw [← Option.some.inj hslot]
      · exact hwf.declared j slot hslot
    · unfold SlotTable.size at hlt ⊢
      rw [Registry.size_push]
      exact hlt
    · intro other
      unfold SlotTable.find?
      rw [Registry.find?_push]
      by_cases heq : name = other
      · simp [heq, SlotTable.size]
      · have hne : ¬other = name := fun h => heq h.symm
        simp [heq, hne]

/-- Whether or not there is room for a slot, the table stays in order. -/
theorem Wf.enter_any {t : SlotTable} (h : t.Wf) (name : String) (span : Span) :
    (t.enter name .any span).2.Wf := by
  rcases henter : t.enter name .any span with ⟨result, t'⟩
  cases result with
  | ok i => exact (h.enter henter).1
  | error e =>
    rw [enter_error henter]
    exact h

end SlotTable

end Rockstar
