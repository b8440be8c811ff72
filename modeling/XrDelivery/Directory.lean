import XrDelivery.Text.Blank
/-!
# The peer directory

Senders address receivers by name; the directory maps an address to a peer number. Entering
an address again replaces its peer. A lookup ignores blanks around the address asked for,
while the entered addresses are kept exactly as given.
-/
namespace XrDelivery

/-- A peer of the simulation, shown as `peer#N`. -/
structure PeerId where
  id : UInt32
deriving DecidableEq, Repr

/-- The text of a peer. -/
def PeerId.display (p : PeerId) : String := s!"peer#{p.id}"

/-- Addresses with their peers, each address once. -/
structure Directory where
  entries : List (String × PeerId) := []

/-- Enter `address` for `peer`, replacing an earlier entry of the same address. -/
def Directory.insert (d : Directory) (address : String) (peer : PeerId) : Directory :=
  ⟨(d.entries.filter fun e => e.1 != address) ++ [(address, peer)]⟩

/-- The directory of the entries, entered in order. -/
def Directory.ofList (es : List (String × PeerId)) : Directory :=
  es.foldl (fun d e => d.insert e.1 e.2) {}

/-- The number of addresses. -/
def Directory.size (d : Directory) : Nat := d.entries.length

/-- The peer of an address, blanks around the asked address ignored. -/
def Directory.resolve (d : Directory) (address : String) : Option PeerId :=
  let key := Text.trimBlank address
  (d.entries.find? fun e => e.1 == key).map Prod.snd

end XrDelivery
