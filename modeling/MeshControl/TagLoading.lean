import MeshControl.Transport

/-!
# Loading the tags of a board

What an earlier run left in the tag table is never trusted: every managed slot is cleared
before the first tag is set. All tags are checked before that, so a fault in them leaves the
table as it is.
-/

namespace MeshControl

variable {σ : Type} [Transport σ]

/-- Check tags and reverse tags, in this order. -/
def checkTags (tags : List IpTag) (reverseTags : List ReverseTag) : Except Fault Unit := do
  tags.forM fun tag => tag.slot.validate tag.board
  reverseTags.forM fun tag => tag.slot.validate tag.board

/-- Clear every managed slot, then set the tags and the reverse tags in the order given. -/
def loadTags (tags : List IpTag) (reverseTags : List ReverseTag) : Action σ Unit := do
  Action.ofExcept (checkTags tags reverseTags)
  TagSlot.managed.forM Transport.clearTag
  tags.forM Transport.setIpTag
  reverseTags.forM Transport.setReverseTag

end MeshControl
