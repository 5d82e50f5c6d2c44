/-
  This file defines ordered maps from texts to texts. An
  entry keeps the place of its first insertion when its value
  is replaced.

  Key definitions include:
    * `Entries`
    * `Entries.get?`
    * `Entries.has`
    * `Entries.set`
    * `Entries.merge`
    * `Entries.ofPairs`
-/

namespace LinkedMarkup

/- Keys and their values, in order. -/
abbrev Entries := List (String × String)

namespace Entries

/- The value of a key. -/
def get?
    (entries : Entries)
    (key : String) : Option String :=
  match entries with
  | [] => none
  | (k, v) :: rest => if k = key then some v else get? rest key

/- Whether a key has a value. -/
def has
    (entries : Entries)
    (key : String) : Bool :=
  (get? entries key).isSome

/- Give a key a value: in its place, or at the end. -/
def set
    (entries : Entries)
    (key value : String) : Entries :=
  match entries with
  | [] => [(key, value)]
  | (k, v) :: rest =>
      if k = key then
        (k, value) :: rest
      else
        (k, v) :: set rest key value

/- Add entries to others, replacing values of equal keys. -/
def merge
    (entries more : Entries) : Entries :=
  more.foldl (fun done entry => set done entry.1 entry.2) entries

/- The map that pairs give, where later ones replace. -/
def ofPairs
    (pairs : List (String × String)) : Entries :=
  merge [] pairs

end Entries
end LinkedMarkup
