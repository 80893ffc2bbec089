import DocFilter.Filter.Clause
import DocFilter.Filter.Guard

/-!
Requests for a page of records.

A request lists clauses and names a page. It arrives as a mapping or ready made; a part that is
missing, null or, for the clauses, false or empty means the default. The sort may be spelled in two
ways, of which the first one that is present counts.
-/

namespace DocFilter

structure Paging where
  page : Value := .null
  limit : Value := .null
  offset : Value := .null
  sortBy : Value := .null
  sortDirection : Value := .null

/-- The entry under the first of two names that is present, null counting as present. -/
def Value.entryOr (v : Value) (name other : String) : Except Failure Value :=
  match v with
  | .map entries => .ok
    (((Value.lookup? entries (.text name)).or (Value.lookup? entries (.text other))).getD .null)
  | v => .error (.noMember v.fullKindName "get")

namespace Paging

def ofValue : Value → Except Failure Paging
  | .null => .ok {}
  | .paging page limit offset sortBy sortDirection =>
    .ok ⟨page, limit, offset, sortBy, sortDirection⟩
  | v => do
    let page ← v.entry "page"
    let limit ← v.entry "limit"
    let offset ← v.entry "offset"
    let sortBy ← v.entryOr "sortBy" "sort_by"
    let sortDirection ← v.entryOr "sortDirection" "sort_direction"
    pure ⟨page, limit, offset, sortBy, sortDirection⟩

def toValue (p : Paging) : Value := .paging p.page p.limit p.offset p.sortBy p.sortDirection

/-- Refuses paging parameters and a sort that are unusable. -/
def check (p : Paging) : Except Failure Unit := do
  checkParameter "page" p.page
  checkParameter "limit" p.limit
  checkParameter "offset" p.offset
  match p.sortBy with
  | .null => pure ()
  | v => checkFieldName v

end Paging

/-- A request: what lists its clauses, and its paging part. A request that was handed over ready
made may hold anything in either place. -/
structure Request where
  filters : Value := .list []
  paging : Value := ({} : Paging).toValue

namespace Request

def ofValue : Value → Except Failure Request
  | .null => .ok {}
  | .request filters paging => .ok ⟨filters, paging⟩
  | v => do
    let filters ← v.entry "filters"
    let items ← (filters.orElse (.list [])).elements
    let clauses ← items.mapM Clause.ofValue
    let paging ← v.entry "pagination"
    let paging ← Paging.ofValue paging
    pure ⟨.list (clauses.map Clause.toValue), paging.toValue⟩

def toValue (r : Request) : Value := .request r.filters r.paging

/-- The paging part of a request, checked. Null passes the check but has no parameters to read. -/
def checkedPaging (r : Request) : Except Failure Paging :=
  match r.paging with
  | .paging page limit offset sortBy sortDirection => do
    let paging : Paging := ⟨page, limit, offset, sortBy, sortDirection⟩
    paging.check
    pure paging
  | .null => .error (.noMember Value.null.fullKindName "limit")
  | v => .error (.noMember v.fullKindName "page")

end Request

end DocFilter
