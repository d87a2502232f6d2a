import NolagCore.Common.ListQueries
import NolagCore.Lib.Lexicographic

/-!
# Common.SortOrder

The order that a list query really gets. The services put `createdAt` in front before `paginate`
adds what was requested, so the request decides only among rows created at one instant.
-/

namespace NolagCore

open Lib

variable {α : Type}

/-- A comparison of rows in a direction. -/
def directed (cmp : α → α → Ordering) : Direction → α → α → Ordering
  | .asc => cmp
  | .desc => fun a b => cmp b a

/-- The terms of an order over the rows, where `cmp` compares by a property path. -/
def comparing (cmp : String → α → α → Ordering) (terms : List (String × Direction)) :
    List (α → α → Ordering) :=
  terms.map fun t => directed (cmp t.1) t.2

/-- The terms a store sorts by. -/
def orderTerms (q : ListQuery) : List (String × Direction) :=
  (prepared q.builder q.base.asIBaseQuery {}).orderBys.entries

/-- A field of the entity, as a property path of the query. -/
def ListQuery.path (q : ListQuery) (field : String) : String :=
  q.builder.«alias» ++ "." ++ field

/-- The term of an entry under a prefix, if it names a column and a direction. -/
def termOf (metadata : EntityMetadata) («alias» : String) (entry : String × Option String) :
    Option (String × Direction) :=
  match sortTerm metadata entry with
  | .ok t => some («alias» ++ "." ++ t.1, t.2)
  | .error _ => none

/-- The term that an entry of `orderBy` asks for. -/
def ListQuery.term? (q : ListQuery) (entry : String) : Option (String × Direction) :=
  termOf q.entity q.builder.«alias» (orderEntry entry)

/-- The requested order. -/
def ListQuery.requested (q : ListQuery) : List (String × Direction) :=
  (q.base.orderBy.getD []).filterMap q.term?

/-- The direction of `createdAt`: the requested one, else that of the service. -/
def ListQuery.createdAtDirection (q : ListQuery) : Direction :=
  ((q.requested.find? fun t => decide (t.1 = q.path "createdAt")).map Prod.snd).getD
    q.defaultDirection

/-- The columns that the request names are named once. -/
def ListQuery.DistinctColumns (q : ListQuery) : Prop :=
  (((q.base.orderBy.getD []).map fun i => (orderEntry i).1).filter fun field =>
    decide (field ∈ q.entity.columns)).Nodup

/-- The query with another list of entries. -/
def ListQuery.withOrderBy (orderBy : Option (List String)) : ListQuery → ListQuery
  | .rooms query appId => .rooms { query with orderBy := orderBy } appId
  | .lobbies query appId => .lobbies { query with orderBy := orderBy } appId
  | .apps query projectId => .apps { query with orderBy := orderBy } projectId
  | .actors query projectId => .actors { query with orderBy := orderBy } projectId

/-- The query without the entries that name no column or no direction. -/
def ListQuery.withoutInvalid (q : ListQuery) : ListQuery :=
  q.withOrderBy (q.base.orderBy.map fun entries => entries.filter fun i => (q.term? i).isSome)

/-- However the store arranges the rows by its terms, they come in the requested order; and the
entries that are no terms make no difference. -/
structure SortsAsRequested (q : ListQuery) (cmp : String → α → α → Ordering) (rows : List α) :
    Prop where
  sorted : ∀ l : List α, l.Perm rows → SortedBy (lexicographic (comparing cmp (orderTerms q))) l →
    SortedBy (lexicographic (comparing cmp q.requested)) l
  dropped : orderTerms q.withoutInvalid = orderTerms q

/-! ## The terms -/

/-- What the loop of `paginate` does to the order: each valid term is set in turn. -/
theorem orderBys_foldl_sortStep (metadata : EntityMetadata)
    (entries : List (String × Option String)) (qb : SelectQueryBuilder) :
    (entries.foldl (sortStep metadata) qb).orderBys =
      (entries.filterMap (termOf metadata qb.«alias»)).foldl (fun m t => m.set t.1 t.2)
        qb.orderBys := by
  induction entries generalizing qb with
  | nil => rfl
  | cons e entries ih =>
    rw [List.foldl_cons, List.filterMap_cons, ih]
    unfold sortStep termOf
    cases sortTerm metadata e with
    | error text => rfl
    | ok t => rfl

/-- A term comes from an entry that names a column. -/
theorem of_termOf {metadata : EntityMetadata} {«alias» : String} {entry : String × Option String}
    {t : String × Direction} (h : termOf metadata «alias» entry = some t) :
    entry.1 ∈ metadata.columns ∧ t.1 = «alias» ++ "." ++ entry.1 := by
  unfold termOf sortTerm at h
  by_cases hcolumn : entry.1 ∈ metadata.columns
  · rw [if_pos hcolumn] at h
    cases hd : normalized entry.2 with
    | none =>
      rw [hd] at h
      cases h
    | some d =>
      rw [hd] at h
      cases h
      exact ⟨hcolumn, rfl⟩
  · rw [if_neg hcolumn] at h
    cases h

/-- Only the entries that name columns matter. -/
theorem filterMap_termOf (metadata : EntityMetadata) («alias» : String)
    (entries : List (String × Option String)) :
    entries.filterMap (termOf metadata «alias») =
      (entries.filter fun e => decide (e.1 ∈ metadata.columns)).filterMap
        (termOf metadata «alias») := by
  rw [List.filterMap_filter]
  apply List.filterMap_congr
  intro e _
  by_cases hcolumn : e.1 ∈ metadata.columns
  · simp [hcolumn]
  · have hnone : termOf metadata «alias» e = none := by
      cases ht : termOf metadata «alias» e with
      | none => rfl
      | some t => exact absurd (of_termOf ht).1 hcolumn
    simp [hnone]

theorem nodup_filterMap_termOf {metadata : EntityMetadata} («alias» : String)
    {entries : List (String × Option String)}
    (h : ((entries.map Prod.fst).filter fun field => decide (field ∈ metadata.columns)).Nodup) :
    ((entries.filterMap (termOf metadata «alias»)).map Prod.fst).Nodup := by
  induction entries with
  | nil => exact List.nodup_nil
  | cons e entries ih =>
    rw [List.map_cons, List.filter_cons] at h
    rw [List.filterMap_cons]
    cases ht : termOf metadata «alias» e with
    | none =>
      apply ih
      split at h
      · exact (List.nodup_cons.1 h).2
      · exact h
    | some t =>
      obtain ⟨hcolumn, hpath⟩ := of_termOf ht
      rw [if_pos (decide_eq_true hcolumn), List.nodup_cons] at h
      rw [List.map_cons, List.nodup_cons]
      refine ⟨?_, ih h.2⟩
      intro hmem
      obtain ⟨t', ht', heq⟩ := List.mem_map.1 hmem
      obtain ⟨e', he', hterm⟩ := List.mem_filterMap.1 ht'
      obtain ⟨hcolumn', hpath'⟩ := of_termOf hterm
      -- equal paths under one alias are equal fields
      have hfield : e'.1 = e.1 := by
        rw [hpath, hpath'] at heq
        exact (String.append_right_inj _).1 heq
      apply h.1
      rw [← hfield]
      exact List.mem_filter.2 ⟨List.mem_map_of_mem he', decide_eq_true hcolumn'⟩

/-- The requested entries, read. -/
def ListQuery.entries (q : ListQuery) : List (String × Option String) :=
  (q.base.orderBy.getD []).map orderEntry

theorem ListQuery.requested_eq (q : ListQuery) :
    q.requested = q.entries.filterMap (termOf q.entity q.builder.«alias») := by
  unfold requested entries
  rw [List.filterMap_map]
  rfl

theorem ListQuery.nodup_entries {q : ListQuery} (h : q.DistinctColumns) :
    ((q.entries.map Prod.fst).filter fun field => decide (field ∈ q.entity.columns)).Nodup := by
  unfold DistinctColumns at h
  unfold entries
  rw [List.map_map]
  exact h

theorem ListQuery.nodup_requested {q : ListQuery} (h : q.DistinctColumns) :
    (q.requested.map Prod.fst).Nodup := by
  rw [q.requested_eq]
  exact nodup_filterMap_termOf _ (nodup_entries h)

/-- The order of a query passes through an object by column; where no column is named twice the
terms come out as they stand in the request. -/
theorem terms_of_order {q : ListQuery} (h : q.DistinctColumns) {order : List String}
    (horder : q.base.orderBy = some order) :
    (OrderedMap.ofList (fun i => (orderEntry i).1) (fun i => (orderEntry i).2)
      order).entries.filterMap (termOf q.entity q.builder.«alias») = q.requested := by
  have hentries : q.entries = order.map orderEntry := by
    unfold ListQuery.entries
    rw [horder]
    rfl
  have hn := ListQuery.nodup_entries h
  rw [hentries, List.map_map] at hn
  have hfilter : (OrderedMap.ofList (fun i => (orderEntry i).1) (fun i => (orderEntry i).2)
      order).entries.filter (fun e => decide (e.1 ∈ q.entity.columns)) =
        (order.map orderEntry).filter fun e => decide (e.1 ∈ q.entity.columns) :=
    OrderedMap.filter_entries_ofList (p := fun field => decide (field ∈ q.entity.columns)) _ hn
  rw [filterMap_termOf, hfilter, ← filterMap_termOf, q.requested_eq, hentries]

/-- The terms of a list query: `createdAt` in front, the requested terms behind it. -/
theorem orderTerms_eq {q : ListQuery} (h : q.DistinctColumns) :
    orderTerms q = (q.path "createdAt", q.createdAtDirection) ::
      q.requested.filter fun t => decide (t.1 ≠ q.path "createdAt") := by
  have hlisted := q.listed
  have hstart : q.builder.orderBys.entries = [(q.path "createdAt", q.defaultDirection)] := by
    rw [hlisted.ordered]
    rfl
  unfold orderTerms prepared
  cases horder : q.base.orderBy with
  | none =>
    have hnone : q.base.asIBaseQuery.order = none := by
      show q.base.order = none
      unfold BaseQuery.order
      rw [horder]
      rfl
    have hrequested : q.requested = [] := by
      unfold ListQuery.requested
      rw [horder]
      rfl
    unfold ListQuery.createdAtDirection
    rw [hnone, hrequested]
    exact hstart
  | some order =>
    have hsome : q.base.asIBaseQuery.order = some (OrderedMap.ofList (fun i => (orderEntry i).1)
        (fun i => (orderEntry i).2) order) := by
      show q.base.order = _
      unfold BaseQuery.order
      rw [horder]
      rfl
    rw [hsome]
    unfold applyOrder
    simp only [Bool.false_eq_true, if_false, hlisted.entity]
    rw [orderBys_foldl_sortStep]
    show ((List.filterMap (termOf q.entity q.builder.«alias») _).foldl _
      q.builder.orderBys).entries = _
    rw [terms_of_order h horder,
      OrderedMap.entries_foldl_set hstart (ListQuery.nodup_requested h) fun _ _ hmem => by cases hmem]
    rfl

/-- What `findPaginated` returns is what the store answers under these terms. -/
theorem findPaginated_data {getManyAndCount : SelectQueryBuilder → Option (List α × Binary64)}
    {q : ListQuery} {answer : PaginatedResult α}
    (h : q.findPaginated getManyAndCount = some answer) :
    ∃ qb total, qb.orderBys.entries = orderTerms q ∧
      getManyAndCount qb = some (answer.data, total) := by
  unfold ListQuery.findPaginated paginate at h
  obtain ⟨⟨data, total⟩, hanswer, rfl⟩ := Option.map_eq_some_iff.1 h
  exact ⟨_, total, rfl, hanswer⟩

/-! ## Leaving invalid entries out -/

theorem ListQuery.base_withOrderBy (orderBy : Option (List String)) (q : ListQuery) :
    (q.withOrderBy orderBy).base.orderBy = orderBy := by
  cases q <;> rfl

/-- The list of entries is all that changes. -/
theorem ListQuery.term?_withOrderBy (orderBy : Option (List String)) (q : ListQuery) :
    (q.withOrderBy orderBy).term? = q.term? ∧ (q.withOrderBy orderBy).path = q.path ∧
      (q.withOrderBy orderBy).entity = q.entity ∧
      (q.withOrderBy orderBy).defaultDirection = q.defaultDirection := by
  cases q <;> exact ⟨rfl, rfl, rfl, rfl⟩

theorem ListQuery.requested_withoutInvalid (q : ListQuery) :
    q.withoutInvalid.requested = q.requested := by
  unfold requested withoutInvalid
  rw [base_withOrderBy, (term?_withOrderBy _ q).1]
  cases q.base.orderBy with
  | none => rfl
  | some order =>
    show (order.filter fun i => (q.term? i).isSome).filterMap q.term? = order.filterMap q.term?
    rw [List.filterMap_filter]
    apply List.filterMap_congr
    intro i _
    cases q.term? i <;> rfl

theorem ListQuery.distinct_withoutInvalid {q : ListQuery} (h : q.DistinctColumns) :
    q.withoutInvalid.DistinctColumns := by
  unfold DistinctColumns withoutInvalid at *
  rw [base_withOrderBy, (term?_withOrderBy _ q).2.2.1]
  cases horder : q.base.orderBy with
  | none => exact List.nodup_nil
  | some order =>
    rw [horder] at h
    exact h.sublist ((List.filter_sublist.map _).filter _)

theorem orderTerms_withoutInvalid {q : ListQuery} (h : q.DistinctColumns) :
    orderTerms q.withoutInvalid = orderTerms q := by
  have hrequested := q.requested_withoutInvalid
  have hkeep := ListQuery.term?_withOrderBy
    (q.base.orderBy.map fun entries => entries.filter fun i => (q.term? i).isSome) q
  have hpath : q.withoutInvalid.path = q.path := hkeep.2.1
  have hdefault : q.withoutInvalid.defaultDirection = q.defaultDirection := hkeep.2.2.2
  rw [orderTerms_eq h, orderTerms_eq (ListQuery.distinct_withoutInvalid h)]
  unfold ListQuery.createdAtDirection
  rw [hrequested, hpath, hdefault]

/-! ## The order of the rows -/

instance transCmp_directed (cmp : α → α → Ordering) [Std.TransCmp cmp] (d : Direction) :
    Std.TransCmp (directed cmp d) := by
  cases d with
  | asc => exact inferInstanceAs (Std.TransCmp cmp)
  | desc => exact inferInstanceAs (Std.TransCmp fun a b => cmp b a)

/-- Among rows of one instant the terms behind `createdAt` are the requested order. -/
theorem comparing_of_tie {q : ListQuery} (h : q.DistinctColumns)
    (cmp : String → α → α → Ordering) {a b : α}
    (htie : directed (cmp (q.path "createdAt")) q.createdAtDirection a b = .eq) :
    lexicographic (comparing cmp q.requested) a b =
      lexicographic (comparing cmp
        (q.requested.filter fun t => decide (t.1 ≠ q.path "createdAt"))) a b := by
  cases hfind : q.requested.find? fun t => decide (t.1 = q.path "createdAt") with
  | none =>
    have hall : q.requested.filter (fun t => decide (t.1 ≠ q.path "createdAt")) = q.requested := by
      rw [List.filter_eq_self]
      intro t ht
      have hne := List.find?_eq_none.1 hfind t ht
      simpa using hne
    rw [hall]
  | some t =>
    obtain ⟨hpath, pre, post, hsplit, hpre⟩ := List.find?_eq_some_iff_append.1 hfind
    have hpath : t.1 = q.path "createdAt" := of_decide_eq_true hpath
    have hdirection : q.createdAtDirection = t.2 := by
      unfold ListQuery.createdAtDirection
      rw [hfind]
      rfl
    have hn := ListQuery.nodup_requested h
    rw [hsplit, List.map_append, List.map_cons, List.nodup_append, List.nodup_cons] at hn
    have hpost : t.1 ∉ post.map Prod.fst := hn.2.1.1
    have hrest : q.requested.filter (fun t => decide (t.1 ≠ q.path "createdAt")) = pre ++ post := by
      have hkeepPre : pre.filter (fun t => decide (t.1 ≠ q.path "createdAt")) = pre := by
        rw [List.filter_eq_self]
        intro u hu
        simpa using hpre u hu
      have hkeepPost : post.filter (fun t => decide (t.1 ≠ q.path "createdAt")) = post := by
        rw [List.filter_eq_self]
        intro u hu
        have hne : u.1 ≠ q.path "createdAt" := by
          rw [← hpath]
          intro heq
          exact hpost (heq ▸ List.mem_map_of_mem hu)
        exact decide_eq_true hne
      rw [hsplit, List.filter_append, List.filter_cons, hkeepPre, hkeepPost]
      simp [hpath]
    rw [hrest, hsplit]
    unfold comparing
    rw [List.map_append, List.map_cons, List.map_append]
    apply lexicographic_of_tie
    rw [hpath, ← hdirection]
    exact htie

/-- A list query sorts as requested just where no row created before another, in the direction
that `createdAt` gets, would have to come after it. -/
theorem sorts_as_requested_iff {q : ListQuery} (h : q.DistinctColumns)
    (cmp : String → α → α → Ordering) [hcmp : ∀ path, Std.TransCmp (cmp path)] (rows : List α) :
    SortsAsRequested q cmp rows ↔
      ∀ a ∈ rows, ∀ b ∈ rows,
        directed (cmp (q.path "createdAt")) q.createdAtDirection a b = .lt →
          (lexicographic (comparing cmp q.requested) a b).isLE = true := by
  have hterms : ∀ d ∈ comparing cmp (orderTerms q), Std.TransCmp d := by
    intro d hd
    obtain ⟨t, -, rfl⟩ := List.mem_map.1 hd
    exact transCmp_directed _ _
  rw [orderTerms_eq h] at hterms
  have hiff := sortedBy_iff hterms (fun a b => comparing_of_tie h cmp) rows
  rw [← hiff]
  constructor
  · intro hsorts l hperm hsorted
    apply hsorts.sorted l hperm
    rw [orderTerms_eq h]
    exact hsorted
  · intro hsorts
    refine ⟨fun l hperm hsorted => ?_, orderTerms_withoutInvalid h⟩
    apply hsorts l hperm
    rw [orderTerms_eq h] at hsorted
    exact hsorted

/-! ## Two rooms -/

/-- A row by its `createdAt` and its `name`. -/
def compareRow (path : String) (a b : Nat × Nat) : Ordering :=
  if path = "room.createdAt" then compare a.1 b.1
  else if path = "room.name" then compare a.2 b.2
  else .eq

instance transCmp_compareRow (path : String) : Std.TransCmp (compareRow path) := by
  unfold compareRow
  split
  · exact inferInstanceAs (Std.TransCmp (compareOn Prod.fst))
  · split
    · exact inferInstanceAs (Std.TransCmp (compareOn Prod.snd))
    · have hnone : Std.TransCmp (lexicographic ([] : List (Nat × Nat → Nat × Nat → Ordering))) :=
        transCmp_lexicographic fun c hc => by cases hc
      exact hnone

/-- Rooms by name. -/
def roomsByName : ListQuery := .rooms { orderBy := some ["name:ASC"] } "app"

/-- Rooms from the newest on, those of one instant by name; one entry names no column. -/
def newestRooms : ListQuery :=
  .rooms { orderBy := some ["createdAt:desc", "colour:ASC", "name:Asc"] } "app"

theorem newestRooms_sorted :
    SortsAsRequested newestRooms compareRow [(1, 2), (2, 1), (2, 3)] := by
  have hdistinct : newestRooms.DistinctColumns := by
    unfold ListQuery.DistinctColumns
    decide +kernel
  refine (sorts_as_requested_iff hdistinct compareRow [(1, 2), (2, 1), (2, 3)]).2 ?_
  decide +kernel

/-- A room created first with a name that comes second is returned first. -/
theorem roomsByName_not_sorted :
    orderTerms roomsByName = [("room.createdAt", .asc), ("room.name", .asc)] ∧
      ¬ SortsAsRequested roomsByName compareRow [(1, 2), (2, 1)] := by
  refine ⟨by decide +kernel, ?_⟩
  intro h
  have hreturned : SortedBy (lexicographic (comparing compareRow (orderTerms roomsByName)))
      [(1, 2), (2, 1)] := by
    unfold SortedBy
    decide +kernel
  have hsorted := h.sorted [(1, 2), (2, 1)] (List.Perm.refl _) hreturned
  unfold SortedBy at hsorted
  revert hsorted
  decide +kernel

end NolagCore
