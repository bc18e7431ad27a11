/-!
# Sorting by a key

Insertion sort by a key: equal keys keep their order, and what is sorted already stays as it is.
-/

set_option autoImplicit false
set_option relaxedAutoImplicit false

namespace LogSequencing

variable {α β : Type} [LE β] [DecidableLE β]

/-- Puts an item before the first one whose key is not less. -/
def insertOn (key : α → β) (item : α) : List α → List α
  | [] => [item]
  | first :: rest =>
    if key item ≤ key first then item :: first :: rest else first :: insertOn key item rest

def sortOn (key : α → β) (items : List α) : List α := items.foldr (insertOn key) []

theorem sortOn_cons (key : α → β) (item : α) (items : List α) :
    sortOn key (item :: items) = insertOn key item (sortOn key items) := rfl

end LogSequencing
