import AsteroidMq.Protocol.Topic.Apply

/-!
# Endpoint sync

Reference: `src/src/protocol/topic.rs`, `get_ep_sync` and `load_ep_sync`.

`get_ep_sync` exports one row per routed endpoint that has an activity record, and
`load_ep_sync` merges such rows into a replica's tables. The merge law of the code
(`loadEpSync_merge`) is read per endpoint: a row is skipped only when the local record is
strictly later, so on equal timestamps the remote row wins, and a row that is taken overwrites
the host and the timestamp but only adds interests. `loadEpSync_tie_overwrites` is a run where
both show.

For rows exported from consistent tables the merge is exact: loaded onto empty tables they
rebuild the exporter's tables, and loaded onto the exporter they change nothing
(`epSync_roundTrip`).

On rows with distinct addresses the loop's steps commute and each is idempotent, so a batch
gives the same tables in any order and a second delivery of it changes nothing
(`loadEpSync_order_idem`).

Loading the rows another replica exports is, endpoint by endpoint, a merge of the two rows
(`mergeRow`). When two replicas exchange their rows they end with the later activity record of
every endpoint and, where the records differ, with the same host; on equal records nothing
breaks the tie and each takes the other's host (`epSync_exchange`). One round of pulls, one
replica after the other, makes them agree on both (`epSync_round_agrees`).
-/

namespace AsteroidMq

namespace TopicData

/-- An endpoint's row across the three tables: its host, its activity record and its interests. -/
def epRow (t : TopicData) (a : EndpointAddr) :
    Option NodeId × Option TimestampSec × Finset Interest :=
  (t.epRoutingTable.lookup a, t.epLatestActive.lookup a, (t.epInterestMap.interestOf a).getD ∅)

theorem skipsRow_eq (t : TopicData) (info : EpInfo) :
    t.skipsRow info = (t.epRow info.addr).2.1.any fun existed => info.latestActive < existed :=
  rfl

theorem epRow_loadEp_of_ne (t : TopicData) (ep : EpInfo) {a : EndpointAddr} (h : a ≠ ep.addr) :
    (t.loadEp ep).epRow a = t.epRow a := by
  simp [epRow, loadEp, Finmap.lookup_insert_of_ne _ h, InterestMap.interestOf_insertAll_of_ne _ _ h]

theorem epRow_loadEp_self (t : TopicData) (ep : EpInfo) :
    (t.loadEp ep).epRow ep.addr =
      (some ep.host, some ep.latestActive, (t.epRow ep.addr).2.2 ∪ ep.interests.toFinset) := by
  simp only [epRow, loadEp, Finmap.lookup_insert, Prod.mk.injEq, true_and]
  ext i
  simp [InterestMap.mem_interestOf_insertAll_self]

/-- One step of the loop leaves the other endpoints' rows alone. -/
theorem epRow_loadEpStep_of_ne (t : TopicData) (ep : EpInfo) {a : EndpointAddr}
    (h : a ≠ ep.addr) : (if t.skipsRow ep then t else t.loadEp ep).epRow a = t.epRow a := by
  split
  · rfl
  · exact epRow_loadEp_of_ne t ep h

/-- An endpoint without a row keeps its tables. -/
theorem epRow_loadEpSync_of_not_mem (t : TopicData) {infos : List EpInfo} {a : EndpointAddr}
    (h : a ∉ infos.map (·.addr)) : (t.loadEpSync infos).epRow a = t.epRow a := by
  induction infos generalizing t with
  | nil => rfl
  | cons ep eps ih =>
    simp only [List.map_cons, List.mem_cons, not_or] at h
    rw [loadEpSync_cons, ih _ h.2, epRow_loadEpStep_of_ne t ep h.1]

/-- An endpoint with one row keeps its tables when its local record is later, and otherwise
takes the row's host and timestamp and adds the row's interests. -/
theorem epRow_loadEpSync_of_mem (t : TopicData) {infos : List EpInfo}
    (hnd : (infos.map (·.addr)).Nodup) {info : EpInfo} (h : info ∈ infos) :
    (t.loadEpSync infos).epRow info.addr =
      if t.skipsRow info then t.epRow info.addr
      else (some info.host, some info.latestActive,
        (t.epRow info.addr).2.2 ∪ info.interests.toFinset) := by
  induction infos generalizing t with
  | nil => cases h
  | cons ep eps ih =>
    rw [List.map_cons, List.nodup_cons] at hnd
    rw [loadEpSync_cons]
    rcases List.mem_cons.mp h with rfl | h
    · rw [epRow_loadEpSync_of_not_mem _ hnd.1]
      split
      · rfl
      · exact epRow_loadEp_self t info
    · have hne : info.addr ≠ ep.addr := fun he => hnd.1 (he ▸ List.mem_map_of_mem _ h)
      rw [ih _ hnd.2 h, skipsRow_eq, epRow_loadEpStep_of_ne t ep hne, ← skipsRow_eq]

/-- The merge law of `load_ep_sync` on rows with distinct addresses: an endpoint without a row
keeps its tables; one with a row keeps them when its local record is strictly later, and
otherwise takes the row's host and timestamp and adds the row's interests to its own. -/
theorem loadEpSync_merge (t : TopicData) (infos : List EpInfo)
    (hnd : (infos.map (·.addr)).Nodup) :
    (∀ a, a ∉ infos.map (·.addr) → (t.loadEpSync infos).epRow a = t.epRow a) ∧
    ∀ info ∈ infos, (t.loadEpSync infos).epRow info.addr =
      if (t.epLatestActive.lookup info.addr).any (info.latestActive < ·) then t.epRow info.addr
      else (some info.host, some info.latestActive,
        (t.epRow info.addr).2.2 ∪ info.interests.toFinset) :=
  ⟨fun _ ha => epRow_loadEpSync_of_not_mem t ha, fun _ h => epRow_loadEpSync_of_mem t hnd h⟩

/-- A row older than the local record is skipped. -/
theorem loadEpSync_merge_olderRow :
    let t := (TopicData.new ⟨⟨[]⟩, none⟩).loadEp ⟨7, 1, [], 5⟩
    let infos : List EpInfo := [⟨7, 2, [], 4⟩, ⟨8, 1, [], 3⟩]
    (infos.map (·.addr)).Nodup ∧ (t.loadEpSync infos).epRow 7 = t.epRow 7 := by
  intro t infos
  have hnd : (infos.map (·.addr)).Nodup := by decide
  refine ⟨hnd, ?_⟩
  rw [(loadEpSync_merge t infos hnd).2 ⟨7, 2, [], 4⟩ (by decide), if_pos (by decide)]

/-- A remote row with the local timestamp takes the local row's place and adds its interests to
the local ones: the tie goes to the remote row, and the local interests stay. -/
theorem loadEpSync_tie_overwrites :
    (((TopicData.new ⟨⟨[]⟩, none⟩).loadEp ⟨7, 1, [⟨[.literal "a"]⟩], 5⟩).loadEpSync
        [⟨7, 2, [⟨[.literal "b"]⟩], 5⟩]).epRow 7 =
      (some 2, some 5, {⟨[.literal "a"]⟩, ⟨[.literal "b"]⟩}) := by
  decide

/-! ## The sync round trip -/

/-- Loading a replica's own rows changes nothing. -/
theorem loadEpSync_getEpSync_self (T : TopicData) (order : IterOrder EndpointAddr)
    (setOrder : SetOrder Interest) : T.loadEpSync (T.getEpSync order setOrder) = T := by
  suffices ∀ infos : List EpInfo, (∀ info ∈ infos, info ∈ T.getEpSync order setOrder) →
      T.loadEpSync infos = T from this _ fun _ h => h
  intro infos hsub
  induction infos with
  | nil => rfl
  | cons info infos ih =>
    obtain ⟨hr, hl, hi⟩ := mem_getEpSync.mp (hsub info (List.mem_cons_self _ _))
    have hskip : T.skipsRow info = false := by simp [skipsRow, hl]
    have hint : T.epInterestMap.insertAll info.interests info.addr = T.epInterestMap := by
      rcases hI : T.epInterestMap.interestOf info.addr with _ | S
      · rw [hi, hI]; rfl
      · exact InterestMap.insertAll_of_subset hI fun i h => by simpa [hi, hI] using h
    have hload : T.loadEp info = T := by
      simp only [loadEp, finmap_insert_of_lookup_eq hr, finmap_insert_of_lookup_eq hl, hint]
    rw [loadEpSync_cons, hskip, if_neg Bool.false_ne_true, hload]
    exact ih fun i h => hsub i (List.mem_cons_of_mem _ h)

section RoundTrip

variable {T t₀ : TopicData} (order : IterOrder EndpointAddr) (setOrder : SetOrder Interest)

/-- Rows exported from consistent tables rebuild every endpoint's row on empty tables. -/
theorem epRow_loadEpSync_getEpSync
    (hkeys : T.epRoutingTable.keys = T.epLatestActive.keys)
    (hint : ∀ a, ∀ i ∈ (T.epInterestMap.interestOf a).getD ∅, a ∈ T.epRoutingTable)
    (hr₀ : t₀.epRoutingTable = ∅) (ha₀ : t₀.epLatestActive = ∅) (hi₀ : t₀.epInterestMap = ∅)
    (a : EndpointAddr) : (t₀.loadEpSync (T.getEpSync order setOrder)).epRow a = T.epRow a := by
  have hkey : a ∈ T.epRoutingTable ↔ a ∈ T.epLatestActive := by
    rw [← Finmap.mem_keys, hkeys, Finmap.mem_keys]
  by_cases ha : a ∈ (T.getEpSync order setOrder).map (·.addr)
  · obtain ⟨info, hinfo, rfl⟩ := List.mem_map.mp ha
    obtain ⟨hr, hl, hi⟩ := mem_getEpSync.mp hinfo
    rw [epRow_loadEpSync_of_mem _ (nodup_getEpSync T order setOrder) hinfo]
    rcases hI : T.epInterestMap.interestOf info.addr with _ | S <;>
      simp [skipsRow, epRow, ha₀, hi₀, hr, hl, hi, hI]
  · rw [epRow_loadEpSync_of_not_mem _ ha]
    have hnr : a ∉ T.epRoutingTable := fun hr => ha <| by
      obtain ⟨host, hh⟩ := Finmap.mem_iff.mp hr
      obtain ⟨la, hla⟩ := Finmap.mem_iff.mp (hkey.mp hr)
      exact List.mem_map.mpr ⟨⟨a, host, ((T.epInterestMap.interestOf a).map setOrder.toList).getD [],
        la⟩, mem_getEpSync.mpr ⟨hh, hla, rfl⟩, rfl⟩
    have hI : (T.epInterestMap.interestOf a).getD ∅ = ∅ :=
      Finset.eq_empty_of_forall_not_mem fun i hi => hnr (hint a i hi)
    simp [epRow, hr₀, ha₀, hi₀, hI, Finmap.lookup_eq_none.mpr hnr,
      Finmap.lookup_eq_none.mpr (mt hkey.mpr hnr)]

/-- The endpoint sync round trip: for tables whose routing and activity keys agree and whose
interested endpoints are routed, the exported rows loaded onto empty tables rebuild the routing
table, the activity table and every endpoint's interests, and loaded onto the exporter they
change nothing. -/
theorem epSync_roundTrip (hkeys : T.epRoutingTable.keys = T.epLatestActive.keys)
    (hint : ∀ a, ∀ i ∈ (T.epInterestMap.interestOf a).getD ∅, a ∈ T.epRoutingTable)
    (hr₀ : t₀.epRoutingTable = ∅) (ha₀ : t₀.epLatestActive = ∅) (hi₀ : t₀.epInterestMap = ∅) :
    ((t₀.loadEpSync (T.getEpSync order setOrder)).epRoutingTable = T.epRoutingTable ∧
      (t₀.loadEpSync (T.getEpSync order setOrder)).epLatestActive = T.epLatestActive ∧
      ∀ a, ((t₀.loadEpSync (T.getEpSync order setOrder)).epInterestMap.interestOf a).getD ∅ =
        (T.epInterestMap.interestOf a).getD ∅) ∧
    T.loadEpSync (T.getEpSync order setOrder) = T := by
  have h := epRow_loadEpSync_getEpSync order setOrder hkeys hint hr₀ ha₀ hi₀
  exact ⟨⟨Finmap.ext_lookup fun a => congrArg (·.1) (h a),
    Finmap.ext_lookup fun a => congrArg (·.2.1) (h a), fun a => congrArg (·.2.2) (h a)⟩,
    loadEpSync_getEpSync_self T order setOrder⟩

/-- One endpoint synced onto a fresh replica, and back onto its own. -/
theorem epSync_roundTrip_oneEndpoint :
    let T := (TopicData.new ⟨⟨[]⟩, none⟩).loadEp ⟨7, 1, [⟨[.literal "a"]⟩], 5⟩
    let t₀ := TopicData.new ⟨⟨[]⟩, none⟩
    let infos := T.getEpSync .id ⟨Finset.toList, Finset.coe_toList⟩
    ((t₀.loadEpSync infos).epRoutingTable = T.epRoutingTable ∧
      (t₀.loadEpSync infos).epLatestActive = T.epLatestActive ∧
      ∀ a, ((t₀.loadEpSync infos).epInterestMap.interestOf a).getD ∅ =
        (T.epInterestMap.interestOf a).getD ∅) ∧
    T.loadEpSync infos = T :=
  epSync_roundTrip .id ⟨Finset.toList, Finset.coe_toList⟩ (by decide)
    (fun a i hi => by
      by_cases ha : a = 7
      · subst ha; decide
      · simp [loadEp, TopicData.new, InterestMap.interestOf_insert_of_ne _ _ ha] at hi)
    rfl rfl rfl

end RoundTrip

/-! ## Order and repetition of the rows -/

/-- The body of `load_ep_sync`'s loop: skip the row or take it. -/
def loadEpStep (t : TopicData) (ep : EpInfo) : TopicData :=
  if t.skipsRow ep then t else t.loadEp ep

theorem loadEpSync_eq_foldl (t : TopicData) (infos : List EpInfo) :
    t.loadEpSync infos = infos.foldl loadEpStep t := by
  induction infos generalizing t with
  | nil => rfl
  | cons ep eps ih => rw [loadEpSync_cons, ih, List.foldl_cons, loadEpStep]

theorem skipsRow_loadEp_of_ne (t : TopicData) {x y : EpInfo} (h : y.addr ≠ x.addr) :
    (t.loadEp x).skipsRow y = t.skipsRow y := by
  simp only [skipsRow, loadEp, Finmap.lookup_insert_of_ne _ h]

theorem skipsRow_loadEp_self (t : TopicData) (x : EpInfo) : (t.loadEp x).skipsRow x = false := by
  simp [skipsRow, loadEp]

/-- Rows of two different endpoints are taken in either order. -/
theorem loadEp_comm (t : TopicData) {x y : EpInfo} (h : x.addr ≠ y.addr) :
    (t.loadEp x).loadEp y = (t.loadEp y).loadEp x := by
  simp only [loadEp, Finmap.insert_insert_of_ne _ h, InterestMap.insertAll_comm _ _ _ h]

/-- A row taken is taken again without change. -/
theorem loadEp_loadEp_self (t : TopicData) (x : EpInfo) : (t.loadEp x).loadEp x = t.loadEp x := by
  simp only [loadEp, Finmap.insert_insert, InterestMap.insertAll_insertAll_self]

/-- Two rows of different endpoints commute in the loop. -/
theorem loadEpStep_comm (t : TopicData) {x y : EpInfo} (h : x.addr ≠ y.addr) :
    (t.loadEpStep x).loadEpStep y = (t.loadEpStep y).loadEpStep x := by
  by_cases hx : t.skipsRow x <;> by_cases hy : t.skipsRow y <;>
    simp only [loadEpStep, hx, hy, skipsRow_loadEp_of_ne _ h, skipsRow_loadEp_of_ne _ h.symm,
      if_true, if_false, Bool.false_eq_true, loadEp_comm _ h]

/-- A row met twice in a row is met once. -/
theorem loadEpStep_idem (t : TopicData) (x : EpInfo) :
    (t.loadEpStep x).loadEpStep x = t.loadEpStep x := by
  by_cases hx : t.skipsRow x <;>
    simp only [loadEpStep, hx, skipsRow_loadEp_self, if_true, if_false, Bool.false_eq_true,
      loadEp_loadEp_self]

theorem foldl_loadEpStep_doubled (t : TopicData) (infos : List EpInfo) :
    (infos.flatMap fun x => [x, x]).foldl loadEpStep t = infos.foldl loadEpStep t := by
  induction infos generalizing t with
  | nil => rfl
  | cons x l ih => rw [List.flatMap_cons, List.cons_append, List.cons_append, List.nil_append,
      List.foldl_cons, List.foldl_cons, loadEpStep_idem, ih, List.foldl_cons]

theorem perm_append_self_flatMap {α : Type} (l : List α) :
    (l ++ l).Perm (l.flatMap fun x => [x, x]) := by
  induction l with
  | nil => rfl
  | cons x l ih =>
    rw [List.cons_append, List.flatMap_cons]
    exact .cons x (List.perm_middle.trans (.cons x ih))

/-- `load_ep_sync` on rows with distinct addresses does not depend on the order of the rows, and
loading the same rows once more changes nothing: replicas that take one sync batch in different
orders, or take it twice, end with the same tables. -/
theorem loadEpSync_order_idem (t : TopicData) {infos : List EpInfo}
    (hnd : (infos.map (·.addr)).Nodup) :
    (∀ infos' : List EpInfo, infos'.Perm infos → t.loadEpSync infos' = t.loadEpSync infos) ∧
      (t.loadEpSync infos).loadEpSync infos = t.loadEpSync infos := by
  have hcomm : ∀ x ∈ infos, ∀ y ∈ infos, ∀ z : TopicData,
      (z.loadEpStep x).loadEpStep y = (z.loadEpStep y).loadEpStep x := fun x hx y hy z => by
    by_cases hxy : x.addr = y.addr
    · rw [List.inj_on_of_nodup_map hnd hx hy hxy]
    · exact loadEpStep_comm z hxy
  simp only [loadEpSync_eq_foldl]
  refine ⟨fun infos' hp => hp.foldl_eq' (fun x hx y hy => hcomm x (hp.subset hx) y (hp.subset hy)) t,
    ?_⟩
  rw [← List.foldl_append, (perm_append_self_flatMap infos).foldl_eq'
    (fun x hx y hy => hcomm x (or_self_iff.mp (List.mem_append.mp hx)) y
      (or_self_iff.mp (List.mem_append.mp hy))) t, foldl_loadEpStep_doubled]

/-- Two taken rows, loaded in the other order or loaded twice. -/
theorem loadEpSync_order_idem_twoRows :
    let t := (TopicData.new ⟨⟨[]⟩, none⟩).loadEp ⟨7, 1, [⟨[.literal "a"]⟩], 5⟩
    let infos : List EpInfo := [⟨7, 2, [⟨[.literal "b"]⟩], 5⟩, ⟨8, 1, [], 3⟩]
    (infos.map (·.addr)).Nodup ∧
      (∀ infos' : List EpInfo, infos'.Perm infos → t.loadEpSync infos' = t.loadEpSync infos) ∧
      (t.loadEpSync infos).loadEpSync infos = t.loadEpSync infos :=
  have hnd : ([⟨7, 2, [⟨[.literal "b"]⟩], 5⟩, ⟨8, 1, [], 3⟩] : List EpInfo).map (·.addr) |>.Nodup :=
    by decide
  ⟨hnd, loadEpSync_order_idem _ hnd⟩

/-! ## Two replicas exchanging their rows -/

/-- What one sync does to one endpoint: the row `mine` of the loading replica after it loads
the row `theirs` of the exporting one. Only a row with a host and an activity record is
exported; it is skipped when `mine` has a strictly later record, and taken otherwise. -/
def mergeRow (mine theirs : Option NodeId × Option TimestampSec × Finset Interest) :
    Option NodeId × Option TimestampSec × Finset Interest :=
  match theirs with
  | (some host, some latest, interests) =>
    if mine.2.1.any (latest < ·) then mine else (some host, some latest, mine.2.2 ∪ interests)
  | _ => mine

/-- `load_ep_sync` of the rows `get_ep_sync` exports is the merge of the two replicas' rows,
endpoint by endpoint. -/
theorem epRow_loadEpSync_getEpSync_eq_mergeRow (t T : TopicData) (order : IterOrder EndpointAddr)
    (setOrder : SetOrder Interest) (a : EndpointAddr) :
    (t.loadEpSync (T.getEpSync order setOrder)).epRow a = mergeRow (t.epRow a) (T.epRow a) := by
  rcases hr : T.epRoutingTable.lookup a with _ | host <;>
    rcases hl : T.epLatestActive.lookup a with _ | latest
  case some.some =>
    have hinfo : ⟨a, host, ((T.epInterestMap.interestOf a).map setOrder.toList).getD [], latest⟩ ∈
        T.getEpSync order setOrder := mem_getEpSync.mpr ⟨hr, hl, rfl⟩
    rw [epRow_loadEpSync_of_mem t (nodup_getEpSync T order setOrder) hinfo, skipsRow_eq]
    rcases hI : T.epInterestMap.interestOf a with _ | S <;> simp [epRow, mergeRow, hr, hl, hI]
  all_goals
    rw [epRow_loadEpSync_of_not_mem]
    · simp [epRow, mergeRow, hr, hl]
    · intro ha
      obtain ⟨info, hinfo, rfl⟩ := List.mem_map.mp ha
      obtain ⟨hr', hl', -⟩ := mem_getEpSync.mp hinfo
      simp_all

section Exchange

variable {x y : Option NodeId × Option TimestampSec × Finset Interest}

@[simp] theorem mergeRow_unexported (x : Option NodeId × Option TimestampSec × Finset Interest)
    (J : Finset Interest) : mergeRow x (none, none, J) = x := rfl

@[simp] theorem mergeRow_exported (x : Option NodeId × Option TimestampSec × Finset Interest)
    (h : NodeId) (τ : TimestampSec) (J : Finset Interest) :
    mergeRow x (some h, some τ, J) =
      if x.2.1.any (τ < ·) then x else (some h, some τ, x.2.2 ∪ J) := rfl

/-- A row of consistent tables has both a host and a record, or neither. -/
theorem row_cases (hx : x.1.isSome = x.2.1.isSome) :
    (∃ I, x = (none, none, I)) ∨ ∃ g σ I, x = (some g, some σ, I) := by
  rcases x with ⟨_ | g, _ | σ, I⟩
  · exact .inl ⟨I, rfl⟩
  · cases hx
  · cases hx
  · exact .inr ⟨g, σ, I, rfl⟩

/-- The activity record after a merge is the later of the two. -/
theorem mergeRow_latest (hy : y.1.isSome = y.2.1.isSome) : (mergeRow x y).2.1 = max x.2.1 y.2.1 := by
  rcases row_cases hy with ⟨J, rfl⟩ | ⟨h, τ, J, rfl⟩
  · rcases x with ⟨_, _ | σ, _⟩ <;> rfl
  rcases x with ⟨g, _ | σ, I⟩
  · rfl
  simp only [mergeRow_exported, Option.any_some, decide_eq_true_eq]
  split_ifs with hlt
  · exact congrArg some (max_eq_left hlt.le).symm
  · exact congrArg some (max_eq_right (not_lt.mp hlt)).symm

/-- Two replicas whose records differ end with the host of the later record. -/
theorem mergeRow_host_of_ne (hx : x.1.isSome = x.2.1.isSome) (hy : y.1.isSome = y.2.1.isSome)
    (hne : x.2.1 ≠ y.2.1) : (mergeRow x y).1 = (mergeRow y x).1 := by
  rcases row_cases hx with ⟨I, rfl⟩ | ⟨g, σ, I, rfl⟩ <;>
    rcases row_cases hy with ⟨J, rfl⟩ | ⟨h, τ, J, rfl⟩
  · rfl
  · rfl
  · rfl
  rcases lt_trichotomy σ τ with hlt | rfl | hlt
  · simp [hlt, not_lt.mpr hlt.le]
  · exact absurd rfl hne
  · simp [hlt, not_lt.mpr hlt.le]

/-- On equal records the loading replica takes the exporter's host. -/
theorem mergeRow_host_of_eq (hx : x.1.isSome = x.2.1.isSome) (hy : y.1.isSome = y.2.1.isSome)
    (heq : x.2.1 = y.2.1) : (mergeRow x y).1 = y.1 := by
  rcases row_cases hx with ⟨I, rfl⟩ | ⟨g, σ, I, rfl⟩ <;>
    rcases row_cases hy with ⟨J, rfl⟩ | ⟨h, τ, J, rfl⟩
  · rfl
  · cases heq
  · cases heq
  · cases heq
    simp

/-- The merged row, merged back into the exporter, gives it the same host and record. -/
theorem mergeRow_mergeRow (hx : x.1.isSome = x.2.1.isSome) (hy : y.1.isSome = y.2.1.isSome) :
    (mergeRow y (mergeRow x y)).1 = (mergeRow x y).1 ∧
      (mergeRow y (mergeRow x y)).2.1 = (mergeRow x y).2.1 := by
  rcases row_cases hx with ⟨I, rfl⟩ | ⟨g, σ, I, rfl⟩ <;>
    rcases row_cases hy with ⟨J, rfl⟩ | ⟨h, τ, J, rfl⟩
  · exact ⟨rfl, rfl⟩
  · simp
  · simp
  by_cases hlt : τ < σ
  · simp [hlt, not_lt.mpr hlt.le]
  · simp [hlt]

end Exchange

theorem max_comm_option (o o' : Option TimestampSec) : max o o' = max o' o := by
  rcases o with _ | σ <;> rcases o' with _ | τ
  · rfl
  · rfl
  · rfl
  · exact congrArg some (max_comm σ τ)

theorem isSome_epRow (T : TopicData) (hkeys : T.epRoutingTable.keys = T.epLatestActive.keys)
    (a : EndpointAddr) : (T.epRow a).1.isSome = (T.epRow a).2.1.isSome := by
  rw [Bool.eq_iff_iff, epRow, Finmap.lookup_isSome, Finmap.lookup_isSome, ← Finmap.mem_keys, hkeys,
    Finmap.mem_keys]

/-- Two replicas whose routing and activity keys agree, as on every run (`keysAgree_run`),
exchange their endpoint rows: each loads what the other's `get_ep_sync` exports. Both end with
the later of the two activity records of every endpoint. Where the records differ they end
with the same host, the later record's; where the records are equal each takes the other's
host, so two hosts that tie on a timestamp swap and stay apart. -/
theorem epSync_exchange {A B : TopicData} (hA : A.epRoutingTable.keys = A.epLatestActive.keys)
    (hB : B.epRoutingTable.keys = B.epLatestActive.keys) (oA oB : IterOrder EndpointAddr)
    (sA sB : SetOrder Interest) (a : EndpointAddr) :
    (A.loadEpSync (B.getEpSync oB sB)).epLatestActive.lookup a =
        max (A.epLatestActive.lookup a) (B.epLatestActive.lookup a) ∧
      (B.loadEpSync (A.getEpSync oA sA)).epLatestActive.lookup a =
        max (A.epLatestActive.lookup a) (B.epLatestActive.lookup a) ∧
      (A.epLatestActive.lookup a ≠ B.epLatestActive.lookup a →
        (A.loadEpSync (B.getEpSync oB sB)).epRoutingTable.lookup a =
          (B.loadEpSync (A.getEpSync oA sA)).epRoutingTable.lookup a) ∧
      (A.epLatestActive.lookup a = B.epLatestActive.lookup a →
        (A.loadEpSync (B.getEpSync oB sB)).epRoutingTable.lookup a = B.epRoutingTable.lookup a ∧
          (B.loadEpSync (A.getEpSync oA sA)).epRoutingTable.lookup a = A.epRoutingTable.lookup a) := by
  have hAB := epRow_loadEpSync_getEpSync_eq_mergeRow A B oB sB a
  have hBA := epRow_loadEpSync_getEpSync_eq_mergeRow B A oA sA a
  have cA := isSome_epRow A hA a
  have cB := isSome_epRow B hB a
  refine ⟨?_, ?_, fun hne => ?_, fun heq => ⟨?_, ?_⟩⟩
  · exact (congrArg (·.2.1) hAB).trans (mergeRow_latest cB)
  · exact (congrArg (·.2.1) hBA).trans ((mergeRow_latest cA).trans (max_comm_option _ _))
  · exact (congrArg (·.1) hAB).trans ((mergeRow_host_of_ne cA cB hne).trans (congrArg (·.1) hBA).symm)
  · exact (congrArg (·.1) hAB).trans (mergeRow_host_of_eq cA cB heq)
  · exact (congrArg (·.1) hBA).trans (mergeRow_host_of_eq cB cA heq.symm)

/-- Endpoint 7 has record 5 on both replicas, routed to node 1 on one and to node 2 on the
other: after the exchange the two hosts have swapped. -/
theorem epSync_exchange_tie :
    let A := (TopicData.new ⟨⟨[]⟩, none⟩).loadEp ⟨7, 1, [], 5⟩
    let B := (TopicData.new ⟨⟨[]⟩, none⟩).loadEp ⟨7, 2, [], 5⟩
    let so : SetOrder Interest := ⟨Finset.toList, Finset.coe_toList⟩
    A.epRoutingTable.keys = A.epLatestActive.keys ∧ B.epRoutingTable.keys = B.epLatestActive.keys ∧
      (A.loadEpSync (B.getEpSync .id so)).epRoutingTable.lookup 7 = some 2 ∧
      (B.loadEpSync (A.getEpSync .id so)).epRoutingTable.lookup 7 = some 1 :=
  have hA : (((TopicData.new ⟨⟨[]⟩, none⟩).loadEp ⟨7, 1, [], 5⟩).epRoutingTable.keys =
      ((TopicData.new ⟨⟨[]⟩, none⟩).loadEp ⟨7, 1, [], 5⟩).epLatestActive.keys) := by decide
  have hB : (((TopicData.new ⟨⟨[]⟩, none⟩).loadEp ⟨7, 2, [], 5⟩).epRoutingTable.keys =
      ((TopicData.new ⟨⟨[]⟩, none⟩).loadEp ⟨7, 2, [], 5⟩).epLatestActive.keys) := by decide
  ⟨hA, hB, (epSync_exchange hA hB .id .id ⟨Finset.toList, Finset.coe_toList⟩
    ⟨Finset.toList, Finset.coe_toList⟩ 7).2.2.2 rfl⟩

/-- One round of pulls between two replicas whose routing and activity keys agree: `A` loads
the rows `B` exports, then `B` loads the rows `A` now exports. After it the two agree on the
host and the activity record of every endpoint, ties included. -/
theorem epSync_round_agrees {A B : TopicData} (hA : A.epRoutingTable.keys = A.epLatestActive.keys)
    (hB : B.epRoutingTable.keys = B.epLatestActive.keys) (oA oB : IterOrder EndpointAddr)
    (sA sB : SetOrder Interest) (a : EndpointAddr) :
    (B.loadEpSync ((A.loadEpSync (B.getEpSync oB sB)).getEpSync oA sA)).epRoutingTable.lookup a =
        (A.loadEpSync (B.getEpSync oB sB)).epRoutingTable.lookup a ∧
      (B.loadEpSync ((A.loadEpSync (B.getEpSync oB sB)).getEpSync oA sA)).epLatestActive.lookup a =
        (A.loadEpSync (B.getEpSync oB sB)).epLatestActive.lookup a := by
  have hA' := epRow_loadEpSync_getEpSync_eq_mergeRow A B oB sB a
  have hB' := epRow_loadEpSync_getEpSync_eq_mergeRow B (A.loadEpSync (B.getEpSync oB sB)) oA sA a
  rw [hA'] at hB'
  obtain ⟨h₁, h₂⟩ := mergeRow_mergeRow (isSome_epRow A hA a) (isSome_epRow B hB a)
  exact ⟨(congrArg (·.1) hB').trans (h₁.trans (congrArg (·.1) hA').symm),
    (congrArg (·.2.1) hB').trans (h₂.trans (congrArg (·.2.1) hA').symm)⟩

/-- The tied replicas of `epSync_exchange_tie`, synced by one round of pulls. -/
theorem epSync_round_agrees_tie :
    let A := (TopicData.new ⟨⟨[]⟩, none⟩).loadEp ⟨7, 1, [], 5⟩
    let B := (TopicData.new ⟨⟨[]⟩, none⟩).loadEp ⟨7, 2, [], 5⟩
    let so : SetOrder Interest := ⟨Finset.toList, Finset.coe_toList⟩
    A.epRoutingTable.keys = A.epLatestActive.keys ∧ B.epRoutingTable.keys = B.epLatestActive.keys ∧
      (B.loadEpSync ((A.loadEpSync (B.getEpSync .id so)).getEpSync .id so)).epRoutingTable.lookup 7 =
        (A.loadEpSync (B.getEpSync .id so)).epRoutingTable.lookup 7 ∧
      (B.loadEpSync ((A.loadEpSync (B.getEpSync .id so)).getEpSync .id so)).epLatestActive.lookup 7 =
        (A.loadEpSync (B.getEpSync .id so)).epLatestActive.lookup 7 :=
  have hA : (((TopicData.new ⟨⟨[]⟩, none⟩).loadEp ⟨7, 1, [], 5⟩).epRoutingTable.keys =
      ((TopicData.new ⟨⟨[]⟩, none⟩).loadEp ⟨7, 1, [], 5⟩).epLatestActive.keys) := by decide
  have hB : (((TopicData.new ⟨⟨[]⟩, none⟩).loadEp ⟨7, 2, [], 5⟩).epRoutingTable.keys =
      ((TopicData.new ⟨⟨[]⟩, none⟩).loadEp ⟨7, 2, [], 5⟩).epLatestActive.keys) := by decide
  ⟨hA, hB, epSync_round_agrees hA hB .id .id ⟨Finset.toList, Finset.coe_toList⟩
    ⟨Finset.toList, Finset.coe_toList⟩ 7⟩

end TopicData

end AsteroidMq
