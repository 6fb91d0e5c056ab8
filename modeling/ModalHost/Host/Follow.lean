import ModalHost.Host.Requests
/-!
Followers: a follower draws its dialog again whenever it sees a change of visibility, and whenever
it sees new visuals while the dialog is shown. It ends when nothing is left that could write.
-/
namespace ModalHost.Host

def draw (h : Host) (f : Nat) : Host :=
  match h.followers[f]? with
  | none => h
  | some follower =>
    let frame := if follower.shown then h.overlay follower.source else .clear
    (h.updateFollower f fun follower => { follower with frame }).record
      (.drew f follower.name frame)

def followShown? (h : Host) (f : Nat) : Option Host :=
  match h.followers[f]? with
  | none => none
  | some follower =>
    if follower.ended then none
    else
      match h.shown? follower.source with
      | none => none
      | some cell =>
        if cell.version ≠ follower.seenShown then
          some ((h.updateFollower f fun follower =>
            { follower with shown := cell.value, seenShown := cell.version }).draw f)
        else if h.storeGone follower.source then
          (h.updateFollower f fun follower => { follower with ended := true }).record
            (.ended (.follower f) follower.name .storeGone)
        else none

def followVisuals? (h : Host) (f : Nat) : Option Host :=
  match h.followers[f]? with
  | none => none
  | some follower =>
    if follower.ended then none
    else
      match follower.pictures with
      | none => none
      | some i =>
        match h.prompts[i]? with
        | none => none
        | some p =>
          if p.visuals.version ≠ follower.seenVisuals then
            let h := h.updateFollower f fun follower =>
              { follower with seenVisuals := p.visuals.version }
            some (if follower.shown then h.draw f else h)
          else if h.promptGone i then
            h.updateFollower f fun follower => { follower with pictures := none }
          else none

end ModalHost.Host
