import RemoteShell.Proofs.Json.Tidying

/-!
# Round trips

Values survive being written and read back, and documents survive being read and written again:
what is written for the value of a document says the same as the document.

## Main definitions

* `RoundTrip`: values and documents survive

## Main results

* `Lawful.roundTrip`: lawful codecs make round trips
-/

namespace RemoteShell

/-- **Round trips** of the values of a type and of their documents. -/
structure RoundTrip (α : Type) [Codec α] [Shaped α] : Prop where
  -- A value is read back from what is written for it.
  read_write : ∀ v : α, Codec.read (write v) = some v
  -- So is the value that a document was read as, whatever the document looks like.
  reread : ∀ (d : Json) (v : α), Codec.read d = some v → Codec.read (write v) = some v
  -- What is written for the value of a document says the same as the document.
  rewrite : ∀ (d : Json) (v : α), d.Proper → Codec.read d = some v → (shape α).Variant d (write v)
  -- Documents that say the same are read as the same value.
  read_variant : ∀ d d' : Json, (shape α).Variant d d' → (Codec.read d : Option α) = Codec.read d'

namespace Lawful

variable (α : Type) [Codec α] [Shaped α] [Lawful α]

theorem write_injective : Function.Injective (write : α → Json) := by
  intro v w h
  have hread : (Codec.read (write v) : Option α) = Codec.read (write w) := by rw [h]
  rwa [read_write, read_write, Option.some.injEq] at hread

/-- **Lawful codecs make round trips.** -/
theorem roundTrip : RoundTrip α where
  read_write := read_write
  reread _ v _ := read_write v
  rewrite d v hd h := by
    refine .of_tidy Shaped.proper hd ?_
    rw [← rewritten, h, Option.map_some]
  read_variant d d' h := by
    have htidy : (Codec.read d : Option α).map write = (Codec.read d' : Option α).map write := by
      rw [rewritten, rewritten, h.tidy_eq]
    exact Option.map_injective (write_injective α) htidy

end Lawful

end RemoteShell
