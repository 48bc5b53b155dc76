import Rockstar.Proofs.Registry

/-!
# The slot table over any requests

A slot table answers two kinds of request: for the slot of a variable, which creates one for a new
name, and for a look-up, which does not. One request keeps the table in order and adds at most the
slot that it asked for (`Holds.serve`), so any requests do (`Holds.serveAll`). The slots are then
numbered from zero in the order in which their names were first granted, and nothing that happens
later moves or changes one.
-/

namespace Rockstar

namespace SlotTable

/-- What a slot table can be asked. -/
inductive Request where
  /-- The slot of a variable, created on first use with the kinds it is declared to hold. -/
  | enter (name : String) (declared : KindSet) (span : Span)
  /-- The slot of a variable, if it has one. -/
  | find (name : String)
  deriving DecidableEq

/-- The table after a request. -/
def serve (t : SlotTable) : Request → SlotTable
  | .enter name declared span => (t.enter name declared span).2
  | .find _ => t

/-- The table after requests, one after the other. -/
def serveAll (t : SlotTable) (requests : List Request) : SlotTable := requests.foldl serve t

/-- The name that a request enters, if it succeeds. -/
def granted? (t : SlotTable) : Request → Option String
  | .enter name declared span =>
    match (t.enter name declared span).1 with
    | .ok _ => some name
    | .error _ => none
  | .find _ => none

/-- The names that requests entered with success, in the order of the requests. -/
def granted (t : SlotTable) : List Request → List String
  | [] => []
  | r :: rest => (t.granted? r).toList ++ (t.serve r).granted rest

/-! ## One request -/

/-- A request fails only for a new name, and only when the table is full. -/
theorem enter_eq_error_iff (t : SlotTable) (name : String) (kinds : KindSet) (span : Span)
    (e : CompileError) :
    (t.enter name kinds span).1 = .error e ↔
      t.find? name = none ∧ indexLimit ≤ t.size ∧ e = .tooManyVariables t.owner span := by
  unfold SlotTable.enter
  cases hfind : t.find? name with
  | some i => simp
  | none =>
    by_cases hlt : t.size < indexLimit
    · have hnot : ¬indexLimit ≤ t.size := Nat.not_le_of_lt hlt
      simp [hlt, hnot]
    · have hle : indexLimit ≤ t.size := Nat.le_of_not_lt hlt
      simp [hlt, hle, eq_comm]

/-- The table of a unit after the names were entered into it: one slot for each of the names, which
has its place as its number. -/
structure Holds (t : SlotTable) (owner : String) (names : List String) : Prop where
  owner_eq : t.owner = owner
  lists : t.slots.Lists Slot.name names
  number_eq : ∀ i slot, t.get? i = some slot → slot.number = i
  size_le : t.size ≤ indexLimit

variable {t : SlotTable} {owner : String} {names : List String}

theorem holds_empty (owner : String) : (SlotTable.empty owner).Holds owner [] where
  owner_eq := rfl
  lists := ⟨Registry.keyed_empty _, rfl⟩
  number_eq := by
    intro i slot h
    simp [SlotTable.empty, SlotTable.get?, Registry.get?, Registry.empty] at h
  size_le := Nat.zero_le _

/-- A new slot stands behind the others, under the number that it has. -/
theorem Holds.push (h : t.Holds owner names) {name : String} (kinds : KindSet)
    (hnew : t.find? name = none) (hlt : t.size < indexLimit) :
    { t with slots := t.slots.push name ⟨t.size, name, kinds⟩ : SlotTable }.Holds owner
      (names ++ [name]) where
  owner_eq := h.owner_eq
  lists := by
    let slot : Slot := ⟨t.size, name, kinds⟩
    show (t.slots.push slot.name slot).Lists Slot.name (names ++ [slot.name])
    exact h.lists.push hnew
  number_eq := by
    intro i slot hslot
    unfold SlotTable.get? at hslot
    rw [Registry.get?_push] at hslot
    split at hslot
    next heq =>
      obtain rfl := Option.some.inj hslot
      exact heq.symm
    next => exact h.number_eq i slot hslot
  size_le := by
    unfold SlotTable.size at hlt ⊢
    rw [Registry.size_push]
    exact hlt

/-- What one request preserves: the slots are those of the names granted so far. -/
theorem Holds.serve (h : t.Holds owner names) (r : Request) :
    (t.serve r).Holds owner (names ++ (t.granted? r).toList) := by
  cases r with
  | find name => simpa [SlotTable.serve, granted?] using h
  | enter name kinds span =>
    simp only [SlotTable.serve, granted?]
    rcases hresult : t.enter name kinds span with ⟨result, t'⟩
    cases result with
    | error e =>
      rw [enter_error hresult]
      simpa using h
    | ok i =>
      simp only [Option.toList_some]
      rcases enter_cases hresult with ⟨hold, rfl⟩ | ⟨hnew, hlt, -, rfl⟩
      · exact ⟨h.owner_eq, h.lists.again hold, h.number_eq, h.size_le⟩
      · exact h.push kinds hnew hlt

/-- What any requests preserve. -/
theorem Holds.serveAll (h : t.Holds owner names) (requests : List Request) :
    (t.serveAll requests).Holds owner (names ++ t.granted requests) := by
  induction requests generalizing t names with
  | nil => simpa [SlotTable.serveAll, granted] using h
  | cons r rest ih =>
    have hrest := ih (h.serve r)
    rw [List.append_assoc] at hrest
    exact hrest

/-! ## Slots that there are -/

theorem grows_serve (t : SlotTable) (r : Request) : t.slots.Grows (t.serve r).slots := by
  cases r with
  | find name => exact .refl _
  | enter name kinds span => exact grows_enter t name kinds span

theorem grows_serveAll (t : SlotTable) (requests : List Request) :
    t.slots.Grows (t.serveAll requests).slots := by
  induction requests generalizing t with
  | nil => exact .refl _
  | cons r rest ih => exact (grows_serve t r).trans (ih (t.serve r))

/-- A variable keeps its slot, whatever is requested. -/
theorem Holds.find?_serveAll (h : t.Holds owner names) {name : String} {i : Nat}
    (hi : t.find? name = some i) (requests : List Request) :
    (t.serveAll requests).find? name = some i := by
  obtain ⟨slot, hslot, hname⟩ := (h.lists.keyed name i).mp hi
  have hkept := (grows_serveAll t requests).get? hslot
  exact ((h.serveAll requests).lists.keyed name i).mpr ⟨slot, hkept, hname⟩

/-- The number that a request gives is where the variable is found from then on. -/
theorem find?_enter {t' : SlotTable} {name : String} {kinds : KindSet} {span : Span} {i : Nat}
    (h : t.enter name kinds span = (.ok i, t')) : t'.find? name = some i := by
  rcases enter_cases h with ⟨hold, rfl⟩ | ⟨-, -, rfl, rfl⟩
  · exact hold
  · show (t.slots.push name _).find? name = some t.size
    rw [Registry.find?_push, if_pos rfl]
    rfl

/-- A new variable has the slot that was asked for. -/
theorem get?_enter {t' : SlotTable} {name : String} {kinds : KindSet} {span : Span} {i : Nat}
    (h : t.enter name kinds span = (.ok i, t')) (hnew : t.find? name = none) :
    t'.get? i = some ⟨i, name, kinds⟩ := by
  rcases enter_cases h with ⟨hold, -⟩ | ⟨-, -, rfl, rfl⟩
  · rw [hnew] at hold
    cases hold
  · show (t.slots.push name _).get? t.slots.size = _
    rw [Registry.get?_push, if_pos rfl]

theorem enter_of_find? {name : String} {i : Nat} (h : t.find? name = some i) (kinds : KindSet)
    (span : Span) : t.enter name kinds span = (.ok i, t) := by
  unfold SlotTable.enter
  rw [h]

/-- Whatever a slot table was asked since it was empty: the slot at place `i` has the number `i`; a
name is looked up exactly where the slot with that name stands, and no name has two slots; there is
one slot for each name that was granted one, in the order in which they first were, and at most
65536. A request for a slot fails exactly when the name is new and there are 65536 slots, and it
then leaves the table as it was, as every look-up does. Nothing asked later changes a slot or moves
it. A name that is granted a slot gets it with the kinds asked for if it is new, and is granted the
same one ever after. -/
theorem allocation_invariant (owner : String) (requests : List Request) :
    let t := (SlotTable.empty owner).serveAll requests
    (∀ i slot, t.get? i = some slot → slot.number = i) ∧
    (∀ name i, t.find? name = some i ↔ ∃ slot, t.get? i = some slot ∧ slot.name = name) ∧
    (t.slots.entries.toList.map Slot.name).Nodup ∧
    t.slots.entries.toList.map Slot.name = ((SlotTable.empty owner).granted requests).eraseDups ∧
    t.size = ((SlotTable.empty owner).granted requests).eraseDups.length ∧
    t.size ≤ 65536 ∧
    (∀ name kinds span,
      ((∃ e, (t.enter name kinds span).1 = .error e) ↔ t.find? name = none ∧ t.size = 65536) ∧
      ∀ e, (t.enter name kinds span).1 = .error e →
        e = .tooManyVariables owner span ∧ (t.enter name kinds span).2 = t) ∧
    (∀ name, t.serve (.find name) = t) ∧
    (∀ more,
      (∀ i slot, t.get? i = some slot → (t.serveAll more).get? i = some slot) ∧
      ∀ name i, t.find? name = some i → (t.serveAll more).find? name = some i) ∧
    ∀ name kinds span i, (t.enter name kinds span).1 = .ok i →
      (t.find? name = none → (t.enter name kinds span).2.get? i = some ⟨i, name, kinds⟩) ∧
      ∀ more kinds' span',
        (((t.serve (.enter name kinds span)).serveAll more).enter name kinds' span').1 =
          .ok i := by
  intro t
  have h : t.Holds owner ((SlotTable.empty owner).granted requests) :=
    (holds_empty owner).serveAll requests
  refine ⟨h.number_eq, h.lists.keyed, h.lists.keyed.nodup, h.lists.keys_eq, h.lists.size_eq,
    h.size_le, ?_, fun _ => rfl, ?_, ?_⟩
  · intro name kinds span
    constructor
    · constructor
      · rintro ⟨e, he⟩
        obtain ⟨hnew, hfull, -⟩ := (enter_eq_error_iff t name kinds span e).mp he
        exact ⟨hnew, Nat.le_antisymm h.size_le hfull⟩
      · rintro ⟨hnew, hfull⟩
        exact ⟨_, (enter_eq_error_iff t name kinds span _).mpr ⟨hnew, Nat.le_of_eq hfull.symm, rfl⟩⟩
    · intro e he
      obtain ⟨-, -, heq⟩ := (enter_eq_error_iff t name kinds span e).mp he
      rw [h.owner_eq] at heq
      exact ⟨heq, enter_error (Prod.ext he rfl)⟩
  · intro more
    exact ⟨fun i slot hslot => (grows_serveAll t more).get? hslot,
      fun name i hi => h.find?_serveAll hi more⟩
  · intro name kinds span i hi
    refine ⟨get?_enter (Prod.ext hi rfl), ?_⟩
    intro more kinds' span'
    have hfound : (t.serve (.enter name kinds span)).find? name = some i :=
      find?_enter (Prod.ext hi rfl)
    have hkept := (h.serve (.enter name kinds span)).find?_serveAll hfound more
    rw [enter_of_find? hkept]

end SlotTable

end Rockstar
