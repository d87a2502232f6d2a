import NolagCore.Lib.Numeral
import NolagCore.Lib.OrderedMap
import NolagCore.Lib.Text

/-!
# Common.Pagination

`common/pagination.ts`: what `paginate` adds to a query that a service has prepared, and what it
reports. A query builder is the state that TypeORM keeps for it: `orderBy` and `where` start a
list anew, `addOrderBy` and `andWhere` add to it, and a sort term that is present keeps its place.
-/

namespace NolagCore

open Lib

inductive Direction where
  | asc | desc
deriving DecidableEq

/-- The metadata of an entity: its name and the property names of its columns. -/
structure EntityMetadata where
  name : String
  columns : List String

/-- A condition of a `WHERE` clause on a property path. -/
inductive Condition where
  | isNull (path : String)
  | equals (path value : String)
  | ilike (path pattern : String)
deriving DecidableEq

structure SelectQueryBuilder where
  «alias» : String
  mainAlias : Option EntityMetadata
  wheres : List Condition := []
  orderBys : OrderedMap String Direction := OrderedMap.empty
  skip : Option Binary64 := none
  take : Option Binary64 := none

namespace SelectQueryBuilder

def «where» (qb : SelectQueryBuilder) (c : Condition) : SelectQueryBuilder :=
  { qb with wheres := [c] }

def andWhere (qb : SelectQueryBuilder) (c : Condition) : SelectQueryBuilder :=
  { qb with wheres := qb.wheres ++ [c] }

def orderBy (qb : SelectQueryBuilder) (path : String) (d : Direction) : SelectQueryBuilder :=
  { qb with orderBys := OrderedMap.empty.set path d }

def addOrderBy (qb : SelectQueryBuilder) (path : String) (d : Direction) : SelectQueryBuilder :=
  { qb with orderBys := qb.orderBys.set path d }

end SelectQueryBuilder

/-! ## The query -/

/-- `BaseQuery`, with `DefaultPagination` as defaults. -/
structure BaseQuery where
  page : String := "1"
  limit : String := "10"
  orderBy : Option (List String) := none

/-- `IBaseQuery`: what `paginate` reads of a query. -/
structure IBaseQuery where
  page : Option String := none
  limit : Option String := none
  order : Option (OrderedMap String (Option String)) := none

/-- `i.split(":")` as an entry: the first two parts, of which the second may be missing. -/
def orderEntry (i : String) : String × Option String :=
  ((splitOn ':' i).headD "", (splitOn ':' i)[1]?)

/-- `get order()`. A later entry for a field overwrites the direction and leaves the place. -/
def BaseQuery.order (query : BaseQuery) : Option (OrderedMap String (Option String)) :=
  query.orderBy.map fun entries =>
    OrderedMap.ofList (fun i => (orderEntry i).1) (fun i => (orderEntry i).2) entries

def BaseQuery.asIBaseQuery (query : BaseQuery) : IBaseQuery where
  page := some query.page
  limit := some query.limit
  order := query.order

/-! ## Sorting -/

/-- `toUpperCase`, as far as the two words can tell: of the characters outside ASCII only the long
s becomes one of their letters. -/
def upperChar (c : Char) : Char := if c = 'ſ' then 'S' else c.toUpper

def toUpperCase (text : String) : String := String.ofList (text.toList.map upperChar)

/-- `String(direction).toUpperCase()` as a direction. -/
def normalized (direction : Option String) : Option Direction :=
  match toUpperCase (direction.getD "undefined") with
  | "ASC" => some .asc
  | "DESC" => some .desc
  | _ => none

/-- One entry of the requested order against the metadata: a term, or what is logged. -/
def sortTerm (metadata : EntityMetadata) (entry : String × Option String) :
    Except String (String × Direction) :=
  if entry.1 ∈ metadata.columns then
    match normalized entry.2 with
    | some d => .ok (entry.1, d)
    | none => .error ("Invalid sort direction \"" ++ entry.2.getD "undefined" ++ "\" for \"" ++
        entry.1 ++ "\".")
  else
    .error ("Invalid sort field \"" ++ entry.1 ++ "\" on " ++ metadata.name ++ ". Valid: " ++
      ", ".intercalate metadata.columns.eraseDups)

/-- One turn of the loop over the requested order. -/
def sortStep (metadata : EntityMetadata) (qb : SelectQueryBuilder)
    (entry : String × Option String) : SelectQueryBuilder :=
  match sortTerm metadata entry with
  | .ok (field, d) => qb.addOrderBy (qb.alias ++ "." ++ field) d
  | .error _ => qb

/-- The requested order on a query. Without metadata there is nothing to check it against and it
is left out. -/
def applyOrder (qb : SelectQueryBuilder) (order : OrderedMap String (Option String)) :
    SelectQueryBuilder :=
  match qb.mainAlias with
  | some metadata => order.entries.foldl (sortStep metadata) qb
  | none => qb

/-! ## Paging -/

structure QueryOptions where
  allRecords : Bool := false

/-- `PaginatedResult`. -/
structure PaginatedResult (α : Type) where
  data : List α
  total : Binary64
  page : Binary64
  pageCount : Binary64

/-- `Number(value)` of an optional text: `undefined` is not a number. -/
def numberOf : Option String → Binary64
  | some text => stringToNumber text
  | none => .nan

/-- `Number(query.page) || 1`. -/
def pageNumber (query : IBaseQuery) : Binary64 := (numberOf query.page).orElse (.ofNat 1)

/-- `Number(query.limit) || 10`, clamped. -/
def pageLimit (query : IBaseQuery) : Binary64 :=
  (((numberOf query.limit).orElse (.ofNat 10)).max (.ofNat 1)).min (.ofNat 100)

/-- The builder with which the store is asked. -/
def prepared (qb : SelectQueryBuilder) (query : IBaseQuery) (options : QueryOptions) :
    SelectQueryBuilder :=
  let limit := pageLimit query
  let paged :=
    if options.allRecords then qb
    else
      { qb with
        skip := some (((pageNumber query).sub (.ofNat 1)).mul limit)
        take := some limit }
  match query.order with
  | some order => applyOrder paged order
  | none => paged

/-- `paginate`, over what the store answers to a builder; none where the store refuses. -/
def paginate {α : Type} (getManyAndCount : SelectQueryBuilder → Option (List α × Binary64))
    (qb : SelectQueryBuilder) (query : IBaseQuery) (options : QueryOptions) :
    Option (PaginatedResult α) :=
  (getManyAndCount (prepared qb query options)).map fun answer =>
    { data := answer.1
      total := answer.2
      page := pageNumber query
      pageCount := (answer.2.div (pageLimit query)).ceil }

end NolagCore
