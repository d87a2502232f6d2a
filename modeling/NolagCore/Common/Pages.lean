import NolagCore.Common.Pagination

/-!
# Common.Pages

What the pages of a list are together. `paginate` clamps the limit and leaves the page as it is
read; a page or a limit that is no whole number reaches the store as it is.
-/

namespace NolagCore

open Lib

/-- The rows that a query selects, in its order. Their number is counted exactly: it is below
`2 ^ 53`, which no table of PostgreSQL reaches. -/
structure ResultSet (α : Type) where
  rows : List α
  counted : rows.length < 2 ^ 53

/-- A number of rows in `OFFSET` or `LIMIT`. What a database makes of a number that is no count is
not the code's: there is no answer here. -/
def rowCount (absent : Nat) : Option Binary64 → Option Nat
  | none => some absent
  | some b => b.toCount?

/-- The rows from the offset on, as many as asked for, and the number of all. -/
def ResultSet.getManyAndCount {α : Type} (r : ResultSet α) (qb : SelectQueryBuilder) :
    Option (List α × Binary64) :=
  match rowCount 0 qb.skip, rowCount r.rows.length qb.take with
  | some offset, some limit =>
    some ((r.rows.drop offset).take limit, .ofNat r.rows.length)
  | _, _ => none

variable {α : Type}

/-- The query for page `i`, with the limit it has. -/
def IBaseQuery.atPage (query : IBaseQuery) (i : Nat) : IBaseQuery :=
  { query with page := some (toString i) }

/-- The rows of page `i` at the limit of a query. -/
def pageRows (qb : SelectQueryBuilder) (query : IBaseQuery) (r : ResultSet α) (i : Nat) :
    Option (List α) :=
  (paginate r.getManyAndCount qb (query.atPage i) {}).map PaginatedResult.data

/-- What the store is asked for: an offset that is a count, and a limit from one to a hundred. -/
def AsksForCounts (qb : SelectQueryBuilder) (query : IBaseQuery) : Prop :=
  (∃ offset, ((prepared qb query {}).skip.bind Binary64.toCount?) = some offset) ∧
    ∃ limit, (prepared qb query {}).take.bind Binary64.toCount? = some limit ∧
      1 ≤ limit ∧ limit ≤ 100

/-- The query is answered, and at its limit the pages from the first to the last cut the result
into consecutive parts; if it asks for a later page there is nothing on it. -/
structure PagesPartition (qb : SelectQueryBuilder) (query : IBaseQuery) (r : ResultSet α) :
    Prop where
  asks : AsksForCounts qb query
  pages : ∃ answer count pages,
    paginate r.getManyAndCount qb query {} = some answer ∧
      answer.pageCount.toCount? = some count ∧
      (List.range count).mapM (fun i => pageRows qb query r (i + 1)) = some pages ∧
      pages.flatten = r.rows ∧ (r.rows.Nodup → pages.Pairwise List.Disjoint)
  later : ∀ answer count i, paginate r.getManyAndCount qb query {} = some answer →
    answer.pageCount.toCount? = some count → answer.page.toCount? = some i → count < i →
    answer.data = []

/-! ## The numbers in force -/

/-- The page that a number stands for. -/
def pageInForce : Binary64 → Option ℚ
  | .nan => some 1
  | .infinity _ => none
  | .finite x _ => some (if x = 0 then 1 else x)

/-- The limit that a number stands for. -/
def limitInForce : Binary64 → ℚ
  | .nan => 10
  | .infinity true => 1
  | .infinity false => 100
  | .finite x _ => if x = 0 then 10 else if x ≤ 1 then 1 else if x ≤ 100 then x else 100

/-- The limit is whole, the page at least one and not past the largest number, and the rows before
the page, `(page - 1) * limit`, are a whole number or as near to one as rounding reaches. -/
def WellPaged (query : IBaseQuery) : Prop :=
  ∃ page, pageInForce (numberOf query.page) = some page ∧
    Whole (limitInForce (numberOf query.limit)) ∧ 1 ≤ page ∧
    page * limitInForce (numberOf query.limit) < overflow ∧
    ∃ n : Int, |(page - 1) * limitInForce (numberOf query.limit) - n| ≤
      spacing ((page - 1) * limitInForce (numberOf query.limit)) / 2

theorem ofNat_one : ∃ h, Binary64.ofNat 1 = .finite 1 h := ⟨_, Binary64.ofNat_eq (by norm_num)⟩

theorem pageNumber_eq {query : IBaseQuery} {page : ℚ}
    (h : pageInForce (numberOf query.page) = some page) :
    ∃ hx, pageNumber query = .finite page hx := by
  obtain ⟨h1, hone⟩ := ofNat_one
  unfold pageNumber
  rw [hone]
  cases hb : numberOf query.page with
  | nan =>
    rw [hb] at h
    cases h
    exact ⟨h1, rfl⟩
  | infinity s =>
    rw [hb] at h
    cases h
  | finite x hx =>
    rw [hb] at h
    by_cases hzero : x = 0
    · have hpage : page = 1 := by simpa [pageInForce, hzero] using h.symm
      subst hpage
      exact ⟨h1, if_pos hzero⟩
    · have hpage : page = x := by simpa [pageInForce, hzero] using h.symm
      subst hpage
      exact ⟨hx, if_neg hzero⟩

theorem pageNumber_of_infinite {query : IBaseQuery} (h : pageInForce (numberOf query.page) = none) :
    ∃ s, pageNumber query = .infinity s := by
  unfold pageNumber
  cases hb : numberOf query.page with
  | nan =>
    rw [hb] at h
    cases h
  | infinity s => exact ⟨s, rfl⟩
  | finite x hx =>
    rw [hb] at h
    cases h

/-- The clamp is exact. -/
theorem pageLimit_eq (query : IBaseQuery) :
    ∃ hl, pageLimit query = .finite (limitInForce (numberOf query.limit)) hl := by
  obtain ⟨h1, hone⟩ := ofNat_one
  obtain ⟨h10, hten⟩ : ∃ h, Binary64.ofNat 10 = .finite 10 h :=
    ⟨_, Binary64.ofNat_eq (by norm_num)⟩
  obtain ⟨h100, hhundred⟩ : ∃ h, Binary64.ofNat 100 = .finite 100 h :=
    ⟨_, Binary64.ofNat_eq (by norm_num)⟩
  unfold pageLimit
  rw [hone, hten, hhundred]
  cases numberOf query.limit with
  | nan => exact ⟨h10, by norm_num [Binary64.orElse, Binary64.max, Binary64.min, limitInForce]⟩
  | infinity s =>
    cases s with
    | false => exact ⟨h100, by norm_num [Binary64.orElse, Binary64.max, Binary64.min, limitInForce]⟩
    | true => exact ⟨h1, by norm_num [Binary64.orElse, Binary64.max, Binary64.min, limitInForce]⟩
  | finite x hx =>
    simp only [Binary64.orElse, limitInForce]
    by_cases hzero : x = 0
    · simp only [if_pos hzero]
      exact ⟨h10, by norm_num [Binary64.max, Binary64.min]⟩
    simp only [if_neg hzero, Binary64.max]
    by_cases hone : x ≤ 1
    · simp only [if_pos hone]
      exact ⟨h1, by norm_num [Binary64.min]⟩
    simp only [if_neg hone, Binary64.min]
    by_cases hhundred : x ≤ 100
    · simp only [if_pos hhundred]
      exact ⟨hx, trivial⟩
    · simp only [if_neg hhundred]
      exact ⟨h100, trivial⟩

theorem limitInForce_bounds (b : Binary64) : 1 ≤ limitInForce b ∧ limitInForce b ≤ 100 := by
  unfold limitInForce
  split
  · norm_num
  · norm_num
  · norm_num
  · split
    · norm_num
    · split
      · norm_num
      · split
        · constructor <;> linarith
        · norm_num

/-! ## The offset -/

theorem skip_applyOrder (qb : SelectQueryBuilder) (order : OrderedMap String (Option String)) :
    (applyOrder qb order).skip = qb.skip ∧ (applyOrder qb order).take = qb.take := by
  unfold applyOrder
  cases qb.mainAlias with
  | none => exact ⟨rfl, rfl⟩
  | some metadata =>
    show (order.entries.foldl (sortStep metadata) qb).skip = qb.skip ∧
      (order.entries.foldl (sortStep metadata) qb).take = qb.take
    generalize order.entries = entries
    induction entries generalizing qb with
    | nil => exact ⟨rfl, rfl⟩
    | cons entry entries ih =>
      have hstep : (sortStep metadata qb entry).skip = qb.skip ∧
          (sortStep metadata qb entry).take = qb.take := by
        unfold sortStep
        split
        · exact ⟨rfl, rfl⟩
        · exact ⟨rfl, rfl⟩
      rw [List.foldl_cons, (ih _).1, (ih _).2]
      exact hstep

theorem skip_prepared (qb : SelectQueryBuilder) (query : IBaseQuery) :
    (prepared qb query {}).skip =
        some (((pageNumber query).sub (.ofNat 1)).mul (pageLimit query)) ∧
      (prepared qb query {}).take = some (pageLimit query) := by
  unfold prepared
  cases query.order with
  | none => exact ⟨rfl, rfl⟩
  | some order => exact skip_applyOrder _ order

/-- Below page one the offset is no count. -/
theorem offset_of_lt_one {page limit : ℚ} {hp : Representable page} {hl : Representable limit}
    (hpage : page < 1) (hlimit : 1 ≤ limit) :
    (((Binary64.finite page hp).sub (.ofNat 1)).mul (.finite limit hl)).toCount? = none := by
  obtain ⟨h1, hone⟩ := ofNat_one
  have hsub := nearest_le_neg (sub_one_le_neg hp hpage)
  have hfinest : (0 : ℚ) < 2 ^ (-1074 : Int) := zpow_pos (by norm_num) _
  rw [hone]
  simp only [Binary64.sub]
  unfold Binary64.ofRat
  split
  · simp only [Binary64.mul]
    apply Binary64.toCount?_ofRat_of_neg
    have hscaled : nearest (page - 1) * limit ≤ nearest (page - 1) * 1 :=
      mul_le_mul_of_nonpos_left hlimit (by linarith)
    linarith
  · have hne : limit ≠ 0 := by linarith
    simp only [Binary64.mul, if_neg hne]
    rfl

/-- From page one on the subtraction does not overflow. -/
theorem offset_of_one_le {page limit : ℚ} {hp : Representable page} {hl : Representable limit}
    (hpage : 1 ≤ page) :
    ((Binary64.finite page hp).sub (.ofNat 1)).mul (.finite limit hl) =
      .ofRat (nearest (page - 1) * limit) := by
  obtain ⟨h1, hone⟩ := ofNat_one
  have hnonneg : 0 ≤ page - 1 := by linarith
  have hle : nearest (page - 1) ≤ page := by
    have hmono := nearest_mono hnonneg (by linarith : page - 1 ≤ page)
    rwa [nearest_of_representable hp] at hmono
  have hlt : |nearest (page - 1)| < 2 ^ 1024 := by
    rw [abs_of_nonneg (nearest_nonneg hnonneg)]
    have hpage' := Binary64.abs_lt_of_representable hp
    rw [abs_of_nonneg (by linarith)] at hpage'
    exact hle.trans_lt hpage'
  rw [hone]
  simp only [Binary64.sub]
  unfold Binary64.ofRat
  rw [dif_pos hlt]
  rfl

/-- Whether the product is finite can be told from the page itself: where one counts at all, the
product is far from the largest number. -/
theorem product_lt_iff {page limit : ℚ} (hp : Representable page) (hpage : 1 ≤ page)
    (hlimit : 1 ≤ limit) (hmax : limit ≤ 100) :
    nearest (page - 1) * limit < overflow ↔ page * limit < overflow := by
  by_cases hlarge : 2 ^ 55 ≤ page
  · rw [nearest_sub_one_of_large hp hlarge]
  · have hnonneg : 0 ≤ page - 1 := by linarith
    have hle : nearest (page - 1) ≤ page := by
      have hmono := nearest_mono hnonneg (by linarith : page - 1 ≤ page)
      rwa [nearest_of_representable hp] at hmono
    have hsmall : page * limit ≤ 2 ^ 55 * 100 :=
      mul_le_mul (not_le.1 hlarge).le hmax (by linarith) (by norm_num)
    have hfar : (2 : ℚ) ^ 55 * 100 < overflow := by decide +kernel
    have hscaled : nearest (page - 1) * limit ≤ page * limit :=
      mul_le_mul_of_nonneg_right hle (by linarith)
    constructor
    · intro _
      exact hsmall.trans_lt hfar
    · intro _
      exact hscaled.trans_lt (hsmall.trans_lt hfar)

/-- Whether the offset is whole can be told from the exact product. -/
theorem whole_product_iff {page limit : ℚ} (hp : Representable page) (hpage : 1 ≤ page)
    (hlimit : Whole limit) :
    Whole (nearest (nearest (page - 1) * limit)) ↔
      ∃ n : Int, |(page - 1) * limit - n| ≤ spacing ((page - 1) * limit) / 2 := by
  rcases nearest_sub_one hp hpage with hexact | hwhole
  · rw [hexact]
    exact whole_nearest_iff _
  · obtain ⟨l, rfl⟩ := hlimit
    obtain ⟨n, rfl⟩ := hwhole
    have hbefore : Whole ((n : ℚ) - 1) := ⟨n - 1, by push_cast; rfl⟩
    obtain ⟨m, hm⟩ := whole_nearest_of_whole hbefore
    constructor
    · intro _
      refine ⟨(n - 1) * l, ?_⟩
      have hpos := spacing_pos (((n : ℚ) - 1) * l)
      push_cast
      rw [sub_self, abs_zero]
      linarith
    · intro _
      apply whole_nearest_of_whole
      exact ⟨m * l, by rw [hm]; push_cast; rfl⟩

theorem exists_count_of_whole {x : ℚ} (hx : 0 ≤ x) (h : Whole x) : ∃ n : Nat, x = n := by
  obtain ⟨m, rfl⟩ := h
  have hm : 0 ≤ m := by exact_mod_cast hx
  obtain ⟨n, rfl⟩ := Int.eq_ofNat_of_zero_le hm
  exact ⟨n, Int.cast_natCast n⟩

theorem offset_infinite {query : IBaseQuery} (h : pageInForce (numberOf query.page) = none)
    {limit : ℚ} {hl : Representable limit} (hlimit : 1 ≤ limit) :
    (((pageNumber query).sub (.ofNat 1)).mul (.finite limit hl)).toCount? = none := by
  obtain ⟨s, hs⟩ := pageNumber_of_infinite h
  obtain ⟨h1, hone⟩ := ofNat_one
  have hne : limit ≠ 0 := by linarith
  rw [hs, hone]
  simp only [Binary64.sub, Binary64.mul, if_neg hne]
  rfl

/-- Where the offset is a count, it is the rounded product. -/
theorem offset_iff {query : IBaseQuery} {page : ℚ}
    (hpage : pageInForce (numberOf query.page) = some page) (offset : Nat) :
    (((pageNumber query).sub (.ofNat 1)).mul (pageLimit query)).toCount? = some offset ↔
      1 ≤ page ∧ page * limitInForce (numberOf query.limit) < overflow ∧
        nearest (nearest (page - 1) * limitInForce (numberOf query.limit)) = offset := by
  obtain ⟨hp, hnumber⟩ := pageNumber_eq hpage
  obtain ⟨hl, hlimit⟩ := pageLimit_eq query
  obtain ⟨hmin, hmax⟩ := limitInForce_bounds (numberOf query.limit)
  rw [hnumber, hlimit]
  by_cases hone : 1 ≤ page
  · have hnonneg : 0 ≤ nearest (page - 1) * limitInForce (numberOf query.limit) :=
      mul_nonneg (nearest_nonneg (by linarith)) (by linarith)
    rw [offset_of_one_le hone, Binary64.toCount?_ofRat hnonneg,
      product_lt_iff hp hone hmin hmax]
    simp [hone]
  · rw [offset_of_lt_one (not_le.1 hone) hmin]
    simp [hone]

theorem asks_iff (qb : SelectQueryBuilder) (query : IBaseQuery) :
    AsksForCounts qb query ↔ WellPaged query := by
  obtain ⟨hskip, htake⟩ := skip_prepared qb query
  obtain ⟨hl, hlimit⟩ := pageLimit_eq query
  obtain ⟨hmin, hmax⟩ := limitInForce_bounds (numberOf query.limit)
  unfold AsksForCounts WellPaged
  rw [hskip, htake, Option.bind_some, Option.bind_some]
  constructor
  · rintro ⟨⟨offset, hoffset⟩, limit, hcount, -, -⟩
    have hwhole : Whole (limitInForce (numberOf query.limit)) := by
      rw [hlimit] at hcount
      obtain ⟨_, heq⟩ := Binary64.toCount?_eq_some.1 hcount
      injection heq with heq
      exact ⟨limit, by rw [heq]; exact (Int.cast_natCast limit).symm⟩
    cases hpage : pageInForce (numberOf query.page) with
    | none =>
      rw [hlimit, offset_infinite hpage hmin] at hoffset
      cases hoffset
    | some page =>
      obtain ⟨hone, hfinite, hround⟩ := (offset_iff hpage offset).1 hoffset
      obtain ⟨hp, -⟩ := pageNumber_eq hpage
      refine ⟨page, rfl, hwhole, hone, hfinite, ?_⟩
      rw [← whole_product_iff hp hone hwhole]
      exact ⟨offset, by rw [hround]; exact (Int.cast_natCast offset).symm⟩
  · rintro ⟨page, hpage, hwhole, hone, hfinite, hnear⟩
    obtain ⟨hp, -⟩ := pageNumber_eq hpage
    obtain ⟨limit, hcount⟩ := exists_count_of_whole (by linarith) hwhole
    constructor
    · have hnonneg : 0 ≤ nearest (nearest (page - 1) * limitInForce (numberOf query.limit)) :=
        nearest_nonneg (mul_nonneg (nearest_nonneg (by linarith)) (by linarith))
      have hround := (whole_product_iff hp hone hwhole).2 hnear
      obtain ⟨offset, hoffset⟩ := exists_count_of_whole hnonneg hround
      exact ⟨offset, (offset_iff hpage offset).2 ⟨hone, hfinite, hoffset⟩⟩
    · rw [hcount] at hmin hmax
      refine ⟨limit, ?_, by exact_mod_cast hmin, by exact_mod_cast hmax⟩
      rw [hlimit, Binary64.toCount?_eq_some]
      exact ⟨hcount ▸ hl, by congr⟩

/-! ## The pages of one limit -/

theorem paginate_eq {qb : SelectQueryBuilder} {query : IBaseQuery} {offset limit : Nat}
    (hoffset : (((pageNumber query).sub (.ofNat 1)).mul (pageLimit query)).toCount? = some offset)
    (hlimit : (pageLimit query).toCount? = some limit) (r : ResultSet α) :
    paginate r.getManyAndCount qb query {} = some
      { data := (r.rows.drop offset).take limit
        total := .ofNat r.rows.length
        page := pageNumber query
        pageCount := ((Binary64.ofNat r.rows.length).div (pageLimit query)).ceil } := by
  obtain ⟨hskip, htake⟩ := skip_prepared qb query
  unfold paginate ResultSet.getManyAndCount rowCount
  rw [hskip, htake]
  simp only [hoffset, hlimit, Option.map_some]

/-- A whole limit in force is a count from one to a hundred. -/
theorem limit_count {query : IBaseQuery} (h : Whole (limitInForce (numberOf query.limit))) :
    ∃ limit : Nat, limitInForce (numberOf query.limit) = limit ∧ 1 ≤ limit ∧ limit ≤ 100 ∧
      pageLimit query = .ofNat limit := by
  obtain ⟨hmin, hmax⟩ := limitInForce_bounds (numberOf query.limit)
  obtain ⟨limit, hcount⟩ := exists_count_of_whole (by linarith) h
  obtain ⟨hl, hlimit⟩ := pageLimit_eq query
  rw [hcount] at hmin hmax
  have hle : limit ≤ 100 := by exact_mod_cast hmax
  refine ⟨limit, hcount, by exact_mod_cast hmin, hle, ?_⟩
  rw [hlimit, Binary64.ofNat_eq (by omega)]
  congr

theorem pageLimit_atPage (query : IBaseQuery) (i : Nat) :
    pageLimit (query.atPage i) = pageLimit query := rfl

theorem limit_atPage (query : IBaseQuery) (i : Nat) : (query.atPage i).limit = query.limit := rfl

theorem pageInForce_atPage (query : IBaseQuery) {i : Nat} (h0 : 0 < i) (hi : i ≤ 2 ^ 53) :
    pageInForce (numberOf (query.atPage i).page) = some (i : ℚ) := by
  have hne : (i : ℚ) ≠ 0 := by exact_mod_cast h0.ne'
  have hnumber : numberOf (query.atPage i).page = stringToNumber (toString i) := rfl
  rw [hnumber, stringToNumber_toString, Binary64.ofNat_eq hi]
  simp only [pageInForce, if_neg hne]

/-- Page `i + 1` starts after `i` pages. -/
theorem pageRows_eq {query : IBaseQuery} {limit : Nat}
    (hforce : limitInForce (numberOf query.limit) = limit) (hmax : limit ≤ 100)
    (hlimit : pageLimit query = .ofNat limit) {i : Nat} (hi : i + 1 ≤ 2 ^ 53)
    (hproduct : i * limit ≤ 2 ^ 53) (qb : SelectQueryBuilder) (r : ResultSet α) :
    pageRows qb query r (i + 1) = some ((r.rows.drop (i * limit)).take limit) := by
  have hcount : (pageLimit (query.atPage (i + 1))).toCount? = some limit := by
    rw [pageLimit_atPage, hlimit]
    exact Binary64.toCount?_ofNat (by omega)
  have hbefore : ((i + 1 : Nat) : ℚ) - 1 = (i : ℚ) := by
    push_cast
    ring
  have hsmall : ((i + 1 : Nat) : ℚ) * limit < overflow := by
    have hle : (i + 1) * limit ≤ 2 ^ 55 := by
      rw [Nat.add_mul]
      omega
    have hfar : (2 : ℚ) ^ 55 < overflow := by decide +kernel
    have hcast : (((i + 1) * limit : Nat) : ℚ) ≤ 2 ^ 55 := by exact_mod_cast hle
    rw [← Nat.cast_mul]
    exact hcast.trans_lt hfar
  have hround : nearest (nearest (((i + 1 : Nat) : ℚ) - 1) * limit) = ((i * limit : Nat) : ℚ) := by
    rw [hbefore, nearest_natCast (by omega), ← Nat.cast_mul, nearest_natCast hproduct]
  have hoffset := (offset_iff (pageInForce_atPage query (Nat.succ_pos i) hi) (i * limit)).2 (by
    rw [limit_atPage, hforce]
    exact ⟨by exact_mod_cast Nat.succ_pos i, hsmall, hround⟩)
  unfold pageRows
  rw [paginate_eq hoffset hcount r]
  rfl

/-- Consecutive parts of one length, put together. -/
theorem flatten_pages (rows : List α) (limit count : Nat) :
    ((List.range count).map fun i => (rows.drop (i * limit)).take limit).flatten =
      rows.take (count * limit) := by
  induction count with
  | zero => simp
  | succ count ih =>
    rw [List.range_succ, List.map_append, List.flatten_append, ih, Nat.succ_mul, List.take_add]
    simp

theorem mapM_eq_some {β : Type} {f : β → Option α} {g : β → α} {l : List β}
    (h : ∀ b ∈ l, f b = some (g b)) : l.mapM f = some (l.map g) := by
  induction l with
  | nil => rfl
  | cons b l ih =>
    rw [List.mapM_cons, h b List.mem_cons_self, ih fun c hc => h c (List.mem_cons_of_mem _ hc)]
    rfl

theorem pageCount_eq {query : IBaseQuery} {limit : Nat} (hmin : 1 ≤ limit) (hmax : limit ≤ 100)
    (hlimit : pageLimit query = .ofNat limit) (r : ResultSet α) :
    ((Binary64.ofNat r.rows.length).div (pageLimit query)).ceil.toCount? =
      some ⌈(r.rows.length : ℚ) / limit⌉₊ := by
  have hl : (0 : ℚ) < limit := by exact_mod_cast hmin
  have hle : ⌈(r.rows.length : ℚ) / limit⌉₊ ≤ 2 ^ 53 := by
    refine (Nat.ceil_le.2 ?_).trans r.counted.le
    rw [div_le_iff₀ hl]
    exact_mod_cast Nat.le_mul_of_pos_right r.rows.length hmin
  rw [hlimit, Binary64.ceil_div hmin r.counted (by omega), Binary64.toCount?_ofNat hle]

/-- Past the last page the offset is past the last row. -/
theorem offset_past_end {page n limit count offset : Nat} (hlimit : 1 ≤ limit)
    (hn : n < 2 ^ 53) (hcount : count = ⌈(n : ℚ) / limit⌉₊) (hlater : count < page)
    (hoffset : nearest (nearest ((page : ℚ) - 1) * limit) = offset) : n ≤ offset := by
  have hl : (0 : ℚ) < limit := by exact_mod_cast hlimit
  have hcover : (n : ℚ) ≤ count * limit := by
    rw [hcount, ← div_le_iff₀ hl]
    exact Nat.le_ceil _
  have hcountmax : count ≤ 2 ^ 53 := by
    rw [hcount]
    refine (Nat.ceil_le.2 ?_).trans hn.le
    rw [div_le_iff₀ hl]
    exact_mod_cast Nat.le_mul_of_pos_right n hlimit
  have hbefore : (count : ℚ) ≤ (page : ℚ) - 1 := by
    have hstep : ((count + 1 : Nat) : ℚ) ≤ page := by exact_mod_cast hlater
    push_cast at hstep
    linarith
  have hround : (count : ℚ) ≤ nearest ((page : ℚ) - 1) := by
    have hmono := nearest_mono (by positivity) hbefore
    rwa [nearest_natCast hcountmax] at hmono
  have hproduct : (n : ℚ) ≤ nearest ((page : ℚ) - 1) * limit :=
    hcover.trans (mul_le_mul_of_nonneg_right hround hl.le)
  have hmono := nearest_mono (by positivity) hproduct
  rw [nearest_natCast hn.le, hoffset] at hmono
  exact_mod_cast hmono

/-- The pages of a query partition every result just where its page and limit are well read:
negative and fractional pages and fractional limits are what the clamp lets through. -/
theorem pages_partition_iff (qb : SelectQueryBuilder) (query : IBaseQuery) (r : ResultSet α) :
    PagesPartition qb query r ↔ WellPaged query := by
  constructor
  · intro h
    exact (asks_iff qb query).1 h.asks
  intro h
  have hasks := (asks_iff qb query).2 h
  obtain ⟨page, hpage, hwhole, -, -, -⟩ := h
  obtain ⟨limit, hforce, hmin, hmax, hlimit⟩ := limit_count hwhole
  have hl : (0 : ℚ) < limit := by exact_mod_cast hmin
  have hlimitCount : (pageLimit query).toCount? = some limit := by
    rw [hlimit]
    exact Binary64.toCount?_ofNat (by omega)
  have hpageCount := pageCount_eq hmin hmax hlimit r
  obtain ⟨⟨offset, hoffset⟩, -⟩ := id hasks
  rw [(skip_prepared qb query).1, Option.bind_some] at hoffset
  have hanswer : paginate r.getManyAndCount qb query {} = _ :=
    paginate_eq hoffset hlimitCount r
  refine ⟨hasks, ?_, ?_⟩
  · have hpages : (List.range ⌈(r.rows.length : ℚ) / limit⌉₊).mapM
        (fun i => pageRows qb query r (i + 1)) =
        some ((List.range ⌈(r.rows.length : ℚ) / limit⌉₊).map fun i =>
          (r.rows.drop (i * limit)).take limit) := by
      apply mapM_eq_some
      intro i hi
      -- a page that is counted starts before the last row
      have hstart : i * limit < r.rows.length := by
        have hlt := Nat.lt_ceil.1 (List.mem_range.1 hi)
        rw [lt_div_iff₀ hl] at hlt
        exact_mod_cast hlt
      have hcounted := r.counted
      have hfew : i ≤ i * limit := Nat.le_mul_of_pos_right i hmin
      exact pageRows_eq hforce hmax hlimit (by omega) (by omega) qb r
    have hall : ((List.range ⌈(r.rows.length : ℚ) / limit⌉₊).map fun i =>
        (r.rows.drop (i * limit)).take limit).flatten = r.rows := by
      rw [flatten_pages]
      apply List.take_of_length_le
      have hcover := Nat.le_ceil ((r.rows.length : ℚ) / limit)
      rw [div_le_iff₀ hl] at hcover
      exact_mod_cast hcover
    refine ⟨_, _, _, hanswer, hpageCount, hpages, hall, ?_⟩
    intro hnodup
    rw [← hall, List.nodup_flatten] at hnodup
    exact hnodup.2
  · intro answer count i hsome hcount hi hlater
    rw [hanswer] at hsome
    cases hsome
    obtain ⟨-, -, hround⟩ := (offset_iff hpage offset).1 hoffset
    obtain ⟨hp, hnumber⟩ := pageNumber_eq hpage
    obtain ⟨hi', heq⟩ := Binary64.toCount?_eq_some.1 hi
    have hpageEq : page = i := by
      have := hnumber.symm.trans heq
      injection this
    rw [hpageEq, hforce] at hround
    have hpast := offset_past_end hmin r.counted
      (Option.some.inj (hcount.symm.trans hpageCount)) hlater hround
    show (r.rows.drop offset).take limit = []
    rw [List.drop_eq_nil_of_le hpast, List.take_nil]

/-- The list of rooms, with nothing to sort by. -/
def roomListing : SelectQueryBuilder where
  «alias» := "room"
  mainAlias := none

/-- Page `-1` asks for the rows from `-20` on, and a limit of `2.5` for two rows and a half. -/
theorem page_minus_one_asks :
    (prepared roomListing { page := some "-1", limit := some "10" } {}).skip =
        some (.ofRat (-20)) ∧
      ¬ AsksForCounts roomListing { page := some "-1", limit := some "10" } ∧
      (prepared roomListing { page := some "1", limit := some "2.5" } {}).take =
        some (.ofRat (5 / 2)) ∧
      ¬ AsksForCounts roomListing { page := some "1", limit := some "2.5" } := by
  have hskip : (prepared roomListing { page := some "-1", limit := some "10" } {}).skip.bind
      Binary64.toCount? = none := by decide +kernel
  have htake : (prepared roomListing { page := some "1", limit := some "2.5" } {}).take.bind
      Binary64.toCount? = none := by decide +kernel
  refine ⟨by decide +kernel, ?_, by decide +kernel, ?_⟩
  · rintro ⟨⟨offset, hoffset⟩, -⟩
    rw [hskip] at hoffset
    cases hoffset
  · rintro ⟨-, limit, hlimit, -⟩
    rw [htake] at hlimit
    cases hlimit

end NolagCore
