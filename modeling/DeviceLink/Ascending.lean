/-! Association lists in ascending order of their keys, one entry a key. -/
namespace DeviceLink.Ascending

variable {κ α : Type} [LT κ] [DecidableEq κ] [DecidableRel (α := κ) (· < ·)]

def insert (k : κ) (v : α) : List (κ × α) → List (κ × α)
  | [] => [(k, v)]
  | (k', v') :: rest =>
    if k < k' then (k, v) :: (k', v') :: rest
    else if k = k' then (k, v) :: rest
    else (k', v') :: insert k v rest

def find? (k : κ) : List (κ × α) → Option α
  | [] => none
  | (k', v') :: rest => if k = k' then some v' else find? k rest

def erase (k : κ) (entries : List (κ × α)) : List (κ × α) :=
  entries.filter fun e => e.1 ≠ k

/-- The entries of any list, the last of those with equal keys counting. -/
def ofList (entries : List (κ × α)) : List (κ × α) :=
  entries.foldl (fun acc e => insert e.1 e.2 acc) []

/-- Keys strictly ascend. -/
def Sorted : List (κ × α) → Prop := List.Pairwise fun a b => a.1 < b.1

end DeviceLink.Ascending
