import SockLynx.Lib.Arrays
import SockLynx.Lib.Blocks
import SockLynx.Lib.ByteOrder
import SockLynx.Lib.Casts
import SockLynx.Lib.Layout
import SockLynx.Lib.Masks
import SockLynx.Lib.Moves
import SockLynx.Lib.Runs
import SockLynx.Lib.Simulation
import SockLynx.Lib.Slices
import SockLynx.Lib.Spans
import SockLynx.Lib.Words
import SockLynx.Model.Api
import SockLynx.Model.Endian
import SockLynx.Model.Endpoint
import SockLynx.Model.Managed
import SockLynx.Model.Native
import SockLynx.Model.Platform
import SockLynx.Model.Plugin
import SockLynx.Model.Process
import SockLynx.Model.Sock
import SockLynx.Model.Sys
import SockLynx.Model.Types
import SockLynx.Model.Util
import SockLynx.Spec.Sockets
import SockLynx.Verified.Addresses
import SockLynx.Verified.Books
import SockLynx.Verified.Bound
import SockLynx.Verified.Boundary
import SockLynx.Verified.Buffers
import SockLynx.Verified.ByteSwap
import SockLynx.Verified.Calls
import SockLynx.Verified.Census
import SockLynx.Verified.Chunks
import SockLynx.Verified.Effects
import SockLynx.Verified.Entries
import SockLynx.Verified.Erasure
import SockLynx.Verified.ErrorReport
import SockLynx.Verified.FlagTruth
import SockLynx.Verified.Frame
import SockLynx.Verified.Holding
import SockLynx.Verified.Independence
import SockLynx.Verified.LastError
import SockLynx.Verified.Mail
import SockLynx.Verified.ManagedLayout
import SockLynx.Verified.MemCmp
import SockLynx.Verified.MemCpy
import SockLynx.Verified.MemSet
import SockLynx.Verified.Misuse
import SockLynx.Verified.ModeFlag
import SockLynx.Verified.ModeSwitch
import SockLynx.Verified.NegativeLength
import SockLynx.Verified.Network
import SockLynx.Verified.NewIPv6
import SockLynx.Verified.OpenAtomic
import SockLynx.Verified.Orphans
import SockLynx.Verified.Ownership
import SockLynx.Verified.Portability
import SockLynx.Verified.Ranges
import SockLynx.Verified.Realization
import SockLynx.Verified.Recovery
import SockLynx.Verified.Refinement
import SockLynx.Verified.Reopen
import SockLynx.Verified.Reply
import SockLynx.Verified.Scripts
import SockLynx.Verified.Tables
import SockLynx.Verified.Truncation
import SockLynx.Verified.V6Only
import SockLynx.Verified.Wire
