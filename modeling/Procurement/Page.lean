/-!
# Pages of a listing

A page skips some entries and shows at most so many of the rest. Requests come
as a pair of signed numbers: a negative offset skips nothing, and a limit that
is not positive means no limit.
-/

namespace Procurement

/-- A window on a listing. -/
structure Page where
  /-- How many entries are passed over. -/
  offset : Nat
  /-- How many entries are shown at most; `none` shows all. -/
  limit : Option Nat
  deriving DecidableEq, Repr

namespace Page

/-- The page that shows the whole listing. -/
def all : Page := ⟨0, none⟩

/-- The page for a requested offset and limit. -/
def ofRequest (offset limit : Int) : Page where
  offset := offset.toNat
  limit := if 0 < limit then some limit.toNat else none

/-- The entries of a listing that the page shows. -/
def select {α : Type} (page : Page) (listing : List α) : List α :=
  let rest := listing.drop page.offset
  match page.limit with
  | none => rest
  | some limit => rest.take limit

/-- The page that shows all selects the whole listing. -/
theorem select_all {α : Type} (listing : List α) : Page.all.select listing = listing := rfl

end Page

end Procurement
