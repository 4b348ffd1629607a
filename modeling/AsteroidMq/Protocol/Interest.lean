import AsteroidMq.Protocol.Endpoint

/-!
# The interest index

Modelled from the spec: `InterestMap<EndpointAddr>` of `interest.rs`, which is not part of the
sources at hand. The code keeps a pattern trie next to `raw`, the map from each endpoint to its
set of interests; snapshots export `raw` and `from_raw` rebuilds the trie from it. The trie is
an index of `raw`, so `find` is read off `raw` here: an endpoint is found for a subject when one
of its interests matches it.
-/

namespace AsteroidMq

/-- Modelled from the spec: `InterestMap<EndpointAddr>`, by its inverse map `raw`. -/
structure InterestMap where
  raw : Finmap fun _ : EndpointAddr => Finset Interest
  deriving DecidableEq

/-- Inserting the value a key already has changes nothing. -/
theorem finmap_insert_of_lookup_eq {β : Type} {m : Finmap fun _ : ℕ => β} {a : ℕ} {b : β}
    (h : m.lookup a = some b) : m.insert a b = m :=
  Finmap.ext_lookup fun x => by
    by_cases hx : x = a
    · subst hx; rw [Finmap.lookup_insert, h]
    · rw [Finmap.lookup_insert_of_ne _ hx]

namespace InterestMap

instance : EmptyCollection InterestMap :=
  ⟨⟨∅⟩⟩

/-- `InterestMap::insert`: add one interest to an endpoint (idempotent). -/
def insert (m : InterestMap) (interest : Interest) (ep : EndpointAddr) : InterestMap :=
  ⟨m.raw.insert ep (Insert.insert interest ((m.raw.lookup ep).getD ∅))⟩

/-- `InterestMap::delete`: forget an endpoint and all its interests. -/
def delete (m : InterestMap) (ep : EndpointAddr) : InterestMap :=
  ⟨m.raw.erase ep⟩

/-- `InterestMap::interest_of`. -/
def interestOf (m : InterestMap) (ep : EndpointAddr) : Option (Finset Interest) :=
  m.raw.lookup ep

/-- `InterestMap::find`: every endpoint with an interest that matches the subject. -/
def find (m : InterestMap) (subject : Subject) : Finset EndpointAddr :=
  m.raw.keys.filter fun ep => ∃ i ∈ (m.raw.lookup ep).getD ∅, i.matches subject

/-- `InterestMap::from_raw`. -/
def fromRaw (raw : Finmap fun _ : EndpointAddr => Finset Interest) : InterestMap :=
  ⟨raw⟩

/-- Insert every interest of a list for one endpoint, in order (the `for interest in ...`
loops of `topic.rs`). -/
def insertAll (m : InterestMap) (interests : List Interest) (ep : EndpointAddr) : InterestMap :=
  interests.foldl (fun m i => m.insert i ep) m

@[simp] theorem insertAll_nil (m : InterestMap) (ep : EndpointAddr) : m.insertAll [] ep = m := rfl

@[simp] theorem insertAll_cons (m : InterestMap) (i : Interest) (is : List Interest)
    (ep : EndpointAddr) : m.insertAll (i :: is) ep = (m.insert i ep).insertAll is ep := rfl

@[simp] theorem raw_fromRaw (raw : Finmap fun _ : EndpointAddr => Finset Interest) :
    (fromRaw raw).raw = raw := rfl

@[simp] theorem interestOf_empty (a : EndpointAddr) : (∅ : InterestMap).interestOf a = none :=
  Finmap.lookup_empty a

@[simp] theorem interestOf_insert_self (m : InterestMap) (i : Interest) (ep : EndpointAddr) :
    (m.insert i ep).interestOf ep = some (Insert.insert i ((m.interestOf ep).getD ∅)) := by
  simp [insert, interestOf]

@[simp] theorem interestOf_insert_of_ne (m : InterestMap) (i : Interest) {ep a : EndpointAddr}
    (h : a ≠ ep) : (m.insert i ep).interestOf a = m.interestOf a := by
  simp [insert, interestOf, h]

@[simp] theorem interestOf_delete (m : InterestMap) (ep a : EndpointAddr) :
    (m.delete ep).interestOf a = if a = ep then none else m.interestOf a := by
  split_ifs with h
  · subst h; exact Finmap.lookup_erase _ _
  · exact Finmap.lookup_erase_ne h

theorem interestOf_insertAll_of_ne (m : InterestMap) (interests : List Interest)
    {ep a : EndpointAddr} (h : a ≠ ep) : (m.insertAll interests ep).interestOf a = m.interestOf a := by
  induction interests generalizing m with
  | nil => rfl
  | cons i is ih => simp [ih, h]

/-- After `insertAll`, the endpoint holds its earlier interests and the listed ones. -/
theorem mem_interestOf_insertAll_self (m : InterestMap) (interests : List Interest)
    (ep : EndpointAddr) (i : Interest) :
    i ∈ ((m.insertAll interests ep).interestOf ep).getD ∅ ↔
      i ∈ (m.interestOf ep).getD ∅ ∨ i ∈ interests := by
  induction interests generalizing m with
  | nil => simp
  | cons j js ih =>
    rw [insertAll_cons, ih]
    simp only [interestOf_insert_self, Option.getD_some, Finset.mem_insert, List.mem_cons]
    tauto

/-- `insertAll` adds the endpoint to `raw` exactly when it lists an interest. -/
theorem mem_raw_insertAll (m : InterestMap) (interests : List Interest) (ep a : EndpointAddr) :
    a ∈ (m.insertAll interests ep).raw ↔ a ∈ m.raw ∨ (a = ep ∧ interests ≠ []) := by
  induction interests generalizing m with
  | nil => simp
  | cons j js ih =>
    rw [insertAll_cons, ih]
    by_cases h : a = ep <;> simp [insert, h]

/-- Inserting interests an endpoint already has changes nothing. -/
theorem insertAll_of_subset {m : InterestMap} {ep : EndpointAddr} {is : Finset Interest}
    (h : m.interestOf ep = some is) {l : List Interest} (hl : ∀ i ∈ l, i ∈ is) :
    m.insertAll l ep = m := by
  induction l with
  | nil => rfl
  | cons i l ih =>
    have hm : m.insert i ep = m := by
      rw [insert, ← interestOf, h, Option.getD_some,
        Finset.insert_eq_of_mem (hl i (List.mem_cons_self i l)), finmap_insert_of_lookup_eq h]
    rw [insertAll_cons, hm, ih fun j hj => hl j (List.mem_cons_of_mem i hj)]

/-- Interests of two different endpoints go in either order. -/
theorem insert_comm (m : InterestMap) (i j : Interest) {a b : EndpointAddr} (h : a ≠ b) :
    (m.insert i a).insert j b = (m.insert j b).insert i a := by
  simp only [insert, Finmap.lookup_insert_of_ne _ h, Finmap.lookup_insert_of_ne _ h.symm,
    Finmap.insert_insert_of_ne _ h]

theorem insert_insertAll_comm (m : InterestMap) (i : Interest) (l : List Interest)
    {a b : EndpointAddr} (h : a ≠ b) :
    (m.insert i a).insertAll l b = (m.insertAll l b).insert i a := by
  induction l generalizing m with
  | nil => rfl
  | cons j js ih => rw [insertAll_cons, insert_comm _ _ _ h, ih, insertAll_cons]

theorem insertAll_comm (m : InterestMap) (l l' : List Interest) {a b : EndpointAddr}
    (h : a ≠ b) : (m.insertAll l a).insertAll l' b = (m.insertAll l' b).insertAll l a := by
  induction l generalizing m with
  | nil => rfl
  | cons i is ih => rw [insertAll_cons, ih, insert_insertAll_comm _ _ _ h, insertAll_cons]

/-- Inserting the same interests again changes nothing. -/
theorem insertAll_insertAll_self (m : InterestMap) (l : List Interest) (ep : EndpointAddr) :
    (m.insertAll l ep).insertAll l ep = m.insertAll l ep := by
  rcases l with _ | ⟨i, is⟩
  · rfl
  obtain ⟨S, hS⟩ := Finmap.mem_iff.mp
    ((mem_raw_insertAll m (i :: is) ep ep).mpr (.inr ⟨rfl, List.cons_ne_nil i is⟩))
  refine insertAll_of_subset hS fun j hj => ?_
  have := (mem_interestOf_insertAll_self m (i :: is) ep j).mpr (.inr hj)
  rwa [interestOf, hS, Option.getD_some] at this

theorem mem_find {m : InterestMap} {subject : Subject} {ep : EndpointAddr} :
    ep ∈ m.find subject ↔ ∃ is, m.interestOf ep = some is ∧ ∃ i ∈ is, i.matches subject := by
  simp only [find, Finset.mem_filter, Finmap.mem_keys, interestOf]
  constructor
  · rintro ⟨hm, h⟩
    obtain ⟨is, his⟩ := Finmap.mem_iff.mp hm
    exact ⟨is, his, by simpa [his] using h⟩
  · rintro ⟨is, his, h⟩
    exact ⟨Finmap.mem_of_lookup_eq_some his, by simpa [his] using h⟩

end InterestMap

end AsteroidMq
