import Procurement.Handle
import Procurement.Market.Catalogue

/-!
# Descriptions for diagnosis

Short texts that show the state of a part of a market to whoever looks for a
fault in it.
-/

namespace Procurement

open Procurement.Text

/-- A time span given in milliseconds, in the largest unit that it fills. -/
def spanText (milliseconds : Nat) : String :=
  let thousandths := milliseconds % 1000
  let fraction := (paddedDigits 3 thousandths).reverse.dropWhile (· == '0') |>.reverse
  if 1000 ≤ milliseconds then
    String.ofList (digits (milliseconds / 1000) ++
      (if fraction = [] then [] else '.' :: fraction) ++ ['s'])
  else if milliseconds = 0 then "0ns"
  else String.ofList (digits milliseconds ++ ['m', 's'])

/-- The text for the entities of one kind, worked on outside transactions or within one. -/
def Catalogue.description {Status Origin Content : Type} (c : Catalogue Status Origin Content)
    (transactional : Bool) : String :=
  "VersionedStore \x7b table: \"" ++ c.table ++ "\", transactional: " ++
    (if transactional then "true" else "false") ++ " \x7d"

/-- The text for transactions that may take so many milliseconds. -/
def limitDescription (limit : Option UInt64) : String :=
  let span := match limit with
    | some milliseconds => "Some(" ++ spanText milliseconds.toNat ++ ")"
    | none => "None"
  "TxManager \x7b timeout: " ++ span ++ " \x7d"

/-- The text for a hold on a transaction with so many references. -/
def handleDescription (references : Nat) : String :=
  "TxHandle \x7b references: " ++ String.ofList (digits references) ++ " \x7d"

end Procurement
