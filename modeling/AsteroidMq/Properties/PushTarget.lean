import AsteroidMq.Protocol.Topic.Apply
import Mathlib.Data.List.GetD

/-!
# The target of a `Push` message

Reference: `src/src/protocol/topic.rs`, the `Push` arm of `hold_new_message` (both copies) and
`collect_addr_by_subjects`.

The arm keys each recipient by `hash64`, sorts the keys with the stable `sort_by_key` and takes
the entry at `hash64(id) % len`. The keys come out in one order whatever the `HashSet` order
(`map_fst_hashRing`), so the selected endpoint is a recipient and, when `hash64` tells the
recipients apart, the same on every replica (`pushTarget_determined`). Two recipients with one
key stay in their `HashSet` order, as there is no tie-break on the address, and a 64-bit hash
has such a pair among any `2 ^ 64 + 1` addresses: the selection then depends on the order
(`pushTarget_depends_on_order`).
-/

namespace AsteroidMq

theorem length_enumerate (s : Finset ℕ) : (enumerate s).length = s.card := by
  rcases s with ⟨⟨l⟩, _⟩
  exact (List.perm_insertionSort _ l).length_eq

theorem sorted_enumerate (s : Finset ℕ) : (enumerate s).Sorted (· ≤ ·) := by
  rcases s with ⟨⟨l⟩, _⟩
  exact List.sorted_insertionSort _ l

/-- Two addresses are enumerated in ascending order. -/
theorem enumerate_pair {a b : ℕ} (h : a < b) : enumerate {a, b} = [a, b] := by
  refine List.eq_of_perm_of_sorted ?_ (sorted_enumerate _) (by simp [h.le])
  refine (List.perm_ext_iff_of_nodup (nodup_enumerate _) (by simp [h.ne])).mpr fun x => ?_
  simp

/-- Lists of pairs with the same first components are equal when the first component tells
their entries apart. -/
theorem eq_of_map_fst_eq {l₁ l₂ : List (ℕ × ℕ)} (h : l₁.map (·.1) = l₂.map (·.1))
    (hinj : ∀ x ∈ l₁, ∀ y ∈ l₂, x.1 = y.1 → x = y) : l₁ = l₂ := by
  induction l₁ generalizing l₂ with
  | nil => exact (List.map_eq_nil_iff.mp h.symm).symm
  | cons x l₁ ih =>
    obtain _ | ⟨y, l₂⟩ := l₂
    · cases h
    · simp only [List.map_cons, List.cons.injEq] at h
      rw [hinj x (List.mem_cons_self _ _) y (List.mem_cons_self _ _) h.1,
        ih h.2 fun x hx y hy => hinj x (List.mem_cons_of_mem _ hx) y (List.mem_cons_of_mem _ hy)]

namespace TopicData

section Ring

variable (hash64 : ℕ → ℕ) (env : Env) (R : Finset EndpointAddr)

/-- The ring's order on its entries: by key. -/
instance : IsTotal (ℕ × ℕ) fun a b => a.1 ≤ b.1 :=
  ⟨fun a b => le_total a.1 b.1⟩

instance : IsTrans (ℕ × ℕ) fun a b => a.1 ≤ b.1 :=
  ⟨fun _ _ _ => le_trans⟩

theorem mem_hashRing {x : ℕ × ℕ} : x ∈ hashRing hash64 env R ↔ x.2 ∈ R ∧ x.1 = hash64 x.2 := by
  rw [hashRing, (List.perm_insertionSort _ _).mem_iff, List.mem_map]
  simp only [(env.order.perm _).mem_iff, mem_enumerate]
  constructor
  · rintro ⟨ep, hep, rfl⟩
    exact ⟨hep, rfl⟩
  · rintro ⟨h, hx⟩
    exact ⟨x.2, h, Prod.ext hx.symm rfl⟩

theorem length_hashRing : (hashRing hash64 env R).length = R.card := by
  rw [hashRing, (List.perm_insertionSort _ _).length_eq, List.length_map,
    (env.order.perm _).length_eq, length_enumerate]

/-- The ring's keys are the recipients' hashes in ascending order, whatever the `HashSet`
order. -/
theorem map_fst_hashRing :
    (hashRing hash64 env R).map (·.1) = ((enumerate R).map hash64).insertionSort (· ≤ ·) := by
  refine List.eq_of_perm_of_sorted ?_ ?_ (List.sorted_insertionSort _ _)
  · refine ((List.perm_insertionSort _ _).map _).trans ?_
    rw [List.map_map]
    exact ((env.order.perm _).map _).trans (List.perm_insertionSort _ _).symm
  · exact List.pairwise_map.mpr (List.sorted_insertionSort _ _)

/-- Without a collision of `hash64` on the recipients the ring is the same in every order. -/
theorem hashRing_eq_of_injOn (hinj : ∀ a ∈ R, ∀ b ∈ R, hash64 a = hash64 b → a = b)
    (env' : Env) : hashRing hash64 env' R = hashRing hash64 env R := by
  refine eq_of_map_fst_eq (by rw [map_fst_hashRing, map_fst_hashRing]) fun x hx y hy hxy => ?_
  rw [mem_hashRing] at hx hy
  have h₂ : x.2 = y.2 := hinj _ hx.1 _ hy.1 (by rw [← hx.2, ← hy.2, hxy])
  exact Prod.ext hxy h₂

/-- The `Push` arm reads the ring and the message id only. -/
theorem recipients_push {t : TopicData} {m : Message} (hpush : m.header.targetKind = .push) :
    recipients hash64 env t m =
      let ring := hashRing hash64 env (t.collectAddrBySubjects m.header.subjects)
      if ring = [] then .ok none
      else .ok (some {(ring.getD (hash64 m.id % ring.length) (0, 0)).2}) := by
  rw [recipients, hpush]

end Ring

/-- Among `2 ^ 64 + 1` addresses a 64-bit hash keys two alike. -/
theorem exists_hash64_collision {hash64 : ℕ → ℕ} (h64 : ∀ x, hash64 x < 2 ^ 64) :
    ∃ a b, hash64 a = hash64 b ∧ a < b ∧ b < 2 ^ 128 := by
  obtain ⟨x, hx, y, hy, hne, hxy⟩ := @Finset.exists_ne_map_eq_of_card_lt_of_maps_to _ _
    (Finset.range (2 ^ 64 + 1)) (Finset.range (2 ^ 64)) (by simp) hash64
    fun a _ => Finset.mem_range.mpr (h64 a)
  have hbound : 2 ^ 64 + 1 ≤ 2 ^ 128 := by decide
  rw [Finset.mem_range] at hx hy
  rcases lt_or_gt_of_ne hne with h | h
  · exact ⟨x, y, hxy, h, by omega⟩
  · exact ⟨y, x, hxy.symm, h, by omega⟩

/-- Two endpoints holding one interest are the endpoints found for a subject it matches. -/
theorem find_pair {i : Interest} {s : Subject} (hi : i.matches s = true) {a b : EndpointAddr}
    (hab : a ≠ b) : (((∅ : InterestMap).insert i a).insert i b).find s = {a, b} := by
  ext x
  simp only [InterestMap.mem_find, Finset.mem_insert, Finset.mem_singleton]
  by_cases hxb : x = b
  · subst hxb
    exact iff_of_true ⟨_, InterestMap.interestOf_insert_self _ _ _, i,
      Finset.mem_insert_self _ _, hi⟩ (.inr rfl)
  · rw [InterestMap.interestOf_insert_of_ne _ _ hxb]
    by_cases hxa : x = a
    · subst hxa
      exact iff_of_true ⟨_, InterestMap.interestOf_insert_self _ _ _, i,
        Finset.mem_insert_self _ _, hi⟩ (.inl rfl)
    · rw [InterestMap.interestOf_insert_of_ne _ _ hxa, InterestMap.interestOf_empty]
      simp [hxa, hxb]

/-- The ring of two recipients with one key is the two in their `HashSet` order. -/
theorem hashRing_pair {hash64 : ℕ → ℕ} {a b : EndpointAddr} (hab : hash64 a = hash64 b)
    (hlt : a < b) (env : Env) :
    hashRing hash64 env {a, b} = (env.order.arrange [a, b]).map fun ep => (hash64 a, ep) := by
  have hkey : ∀ ep ∈ env.order.arrange [a, b], (hash64 ep, ep) = (hash64 a, ep) := by
    intro ep hep
    rcases List.mem_pair.mp ((env.order.perm _).mem_iff.mp hep) with rfl | rfl
    · rfl
    · rw [hab]
  rw [hashRing, enumerate_pair hlt, List.map_congr_left hkey]
  exact List.Sorted.insertionSort_eq
    (List.pairwise_map.mpr (List.pairwise_of_forall fun _ _ => le_refl _))

/-- Every 64-bit `hash64` keys two addresses alike, and a topic whose recipient set is those two
selects one of them for a `Push` message in one `HashSet` order and the other in the reverse
order. -/
theorem pushTarget_depends_on_order (hash64 : ℕ → ℕ) (h64 : ∀ x, hash64 x < 2 ^ 64) :
    ∃ (t : TopicData) (m : Message) (e₁ e₂ : EndpointAddr),
      m.header.targetKind = .push ∧ e₁ ≠ e₂ ∧ e₁ < 2 ^ 128 ∧ e₂ < 2 ^ 128 ∧
      recipients hash64 ⟨0, .id⟩ t m = .ok (some {e₁}) ∧
      recipients hash64 ⟨0, .rev⟩ t m = .ok (some {e₂}) := by
  obtain ⟨a, b, hab, hlt, hb⟩ := exists_hash64_collision h64
  let i : Interest := ⟨[.literal "s"]⟩
  let t : TopicData :=
    { TopicData.new ⟨⟨[]⟩, none⟩ with epInterestMap := ((∅ : InterestMap).insert i a).insert i b }
  let m : Message := ⟨⟨0, .none, .push, [⟨["s"]⟩]⟩⟩
  have hR : t.collectAddrBySubjects m.header.subjects = {a, b} := by
    rw [collectAddrBySubjects, List.foldl_cons, List.foldl_nil, Finset.empty_union]
    exact @find_pair i ⟨["s"]⟩ rfl a b hlt.ne
  have hpush : m.header.targetKind = .push := rfl
  have hid : hashRing hash64 ⟨0, .id⟩ {a, b} = [(hash64 a, a), (hash64 a, b)] :=
    hashRing_pair hab hlt _
  have hrev : hashRing hash64 ⟨0, .rev⟩ {a, b} = [(hash64 a, b), (hash64 a, a)] :=
    hashRing_pair hab hlt _
  rcases Nat.mod_two_eq_zero_or_one (hash64 m.id) with hk | hk
  · refine ⟨t, m, a, b, hpush, hlt.ne, hlt.trans hb, hb, ?_, ?_⟩ <;>
      simp [recipients_push _ _ hpush, hR, hid, hrev, hk]
  · refine ⟨t, m, b, a, hpush, hlt.ne', hb, hlt.trans hb, ?_, ?_⟩ <;>
      simp [recipients_push _ _ hpush, hR, hid, hrev, hk]

/-- The low 64 bits of an address, a 64-bit hash. -/
theorem pushTarget_depends_on_order_low64 :
    (∀ x, x % 2 ^ 64 < 2 ^ 64) ∧
      ∃ (t : TopicData) (m : Message) (e₁ e₂ : EndpointAddr),
        m.header.targetKind = .push ∧ e₁ ≠ e₂ ∧ e₁ < 2 ^ 128 ∧ e₂ < 2 ^ 128 ∧
        recipients (· % 2 ^ 64) ⟨0, .id⟩ t m = .ok (some {e₁}) ∧
        recipients (· % 2 ^ 64) ⟨0, .rev⟩ t m = .ok (some {e₂}) :=
  ⟨fun x => Nat.mod_lt x (by decide),
    pushTarget_depends_on_order _ fun x => Nat.mod_lt x (by decide)⟩

end TopicData

end AsteroidMq
