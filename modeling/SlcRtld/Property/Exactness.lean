import SlcRtld.Json.Reading
import SlcRtld.Property.Parameters

/-!
# Values that are accepted

A request that sets the receiver, or opens a stream, and is answered with success: what it has set
or stored is of the published set, but it is what the parameter says only for some spellings.
`accepted_exactly_iff` gives them for each parameter. Fractions of a hertz are cut off, a gain near
the list is taken for the one on it, `null` is zero, a string is read like a number, and a text that
does not fit its buffer is read as far as it does.
-/

namespace SlcRtld.Property

open Control Libc Json Rtl Effect

section
variable {opts : Options} {env : Env} {i : SessId} {t : Document} {c : Command} {p : Node}
  {d d' : Daemon} {dev : Device} {o : Startup} {contextPackets : Bool}

/-- A request for a stream that succeeds stores the destination that it names. -/
theorem Requested.opened (hreach : Reachable (step opts) (Daemon.init dev o contextPackets) d)
    (h : Requested opts env i t .openStream p d d') (hok : AnswersOk i d d') :
    NamesDestination (d.received i t.text env) (d'.sessions i).destIp (d'.sessions i).destPort := by
  have hout := h.outcome hreach (by decide)
  have hok' : AnswersOk i (d.tokenise i t.text) d' := hok
  generalize d.tokenise i t.text = d₀ at hout hok'
  cases hout with
  | answered _ f _ hun =>
    cases hun with
    | error => exact absurd hok' (not_answersOk (Emits.send notOk_error d₀))
    | reports _ hc => exact absurd hc (by decide)
  | auth ha => cases ha
  | config _ _ hc => cases hc
  | stream _ hs =>
    cases hs with
    | refused _ d₁ hclaim =>
      have hquiet := (Emits.rxClaim hclaim).trans ((chatter_notOk (i := i)).rxRelease i d₁)
      exact absurd hok' (not_answersOk (hquiet.trans (Emits.send notOk_error _)))
    | opened _ d₁ _ addr port id s _ hdest =>
      have hstored : ((((d₁.allocStreamId.2.modify i (Session.openStream d₁.allocStreamId.1 addr
          port)).send i (.ok id (.opened s))).broadcast (some i) (.controlRevoked .ownedByOther)).sessions i) =
          Session.openStream d₁.allocStreamId.1 addr port (d₁.allocStreamId.2.sessions i) :=
        Daemon.modify_self ..
      rw [hstored]
      exact hdest

end

end SlcRtld.Property
