import KongjaExpress.Core.Watcher
import KongjaExpress.Library.Custody

/-! The listening socket of `tcp_server.c` and `tcp_server_ipv4.c`. -/

namespace KongjaExpress.Net

open Custody EventLoop

/-- `tcp_server_t`. -/
structure TcpListener where
  sd : Int
  isListening : Bool
  watcher : Watcher
  deriving DecidableEq, Repr

def tcpServerInit (sd : Int) : TcpListener where
  sd := sd
  isListening := false
  watcher := watcherWatchRx (watcherInitWithFd sd)

def tcpServerStart (server : TcpListener) : TcpListener :=
  if server.isListening then server
  else { server with isListening := true, watcher := watcherStart server.watcher }

def tcpServerStop (server : TcpListener) : TcpListener :=
  if !server.isListening then server
  else { server with isListening := false, watcher := watcherStop server.watcher }

def tcpServerDeinit (server : TcpListener) : TcpListener × List (Entry Int) :=
  let server := tcpServerStop server
  if server.sd ≠ -1 then ({ server with sd := -1 }, [.give server.sd])
  else (server, [])

structure ListenKernel where
  socket : Int
  bind : Int
  listen : Int

/-- `__init_tcp_server_ipv4`: what it returns, the listener, and the descriptors that were
opened and closed. -/
def tcpServerIpv4Init (kernel : ListenKernel) (memory : TcpListener) :
    Int × TcpListener × List (Entry Int) :=
  let server := { memory with sd := -1 }
  let sd := kernel.socket
  if sd < 0 then (-1, server, [])
  else if kernel.bind ≠ 0 then (-1, server, [.take sd, .give sd])
  else if kernel.listen ≠ 0 then (-1, server, [.take sd, .give sd])
  else (0, tcpServerInit sd, [.take sd])

structure Listening (sd : Int) (server : TcpListener) : Prop where
  sd : server.sd = sd
  follows : LoopMatchesFlags server.watcher
  started : isStarted server.watcher = server.isListening
  watching : isWatching server.watcher .rx = true

theorem listening_init (sd : Int) : Listening sd (tcpServerInit sd) where
  sd := rfl
  follows := loopMatchesFlags_startTarget _ _ (loopMatchesFlags_init sd)
  started := (isStarted_startTarget _ _).trans (isStarted_init sd)
  watching := isWatching_startTarget _ _ _

variable {sd : Int} {server : TcpListener}

theorem Listening.start (listening : Listening sd server) : Listening sd (tcpServerStart server) := by
  rw [tcpServerStart]
  split_ifs
  · exact listening
  · exact ⟨listening.sd, loopMatchesFlags_watcherStart _ listening.follows,
      isStarted_watcherStart _, (isWatching_watcherStart _ _).trans listening.watching⟩

theorem Listening.stop (listening : Listening sd server) :
    Listening sd (tcpServerStop server) ∧ (tcpServerStop server).isListening = false := by
  rw [tcpServerStop]
  split_ifs with idle
  · exact ⟨listening, by simpa using idle⟩
  · exact ⟨⟨listening.sd, loopMatchesFlags_watcherStop _ listening.follows,
      isStarted_watcherStop _, (isWatching_watcherStop _ _).trans listening.watching⟩, rfl⟩

theorem Listening.evIo_eq (listening : Listening sd server) :
    evIo server.watcher .rx = server.isListening := by
  rw [listening.follows, listening.watching, listening.started, Bool.and_true]

theorem tcpServerStop_sd (server : TcpListener) : (tcpServerStop server).sd = server.sd := by
  rw [tcpServerStop]
  split_ifs <;> rfl

theorem tcpServerDeinit_entries (server : TcpListener) :
    (tcpServerDeinit server).2 = if server.sd = -1 then [] else [.give server.sd] := by
  rw [tcpServerDeinit, tcpServerStop_sd]
  split_ifs <;> first | rfl | contradiction

theorem tcpServerIpv4Init_cases (kernel : ListenKernel) (memory : TcpListener) :
    ((tcpServerIpv4Init kernel memory).1 = -1 ∧ ((tcpServerIpv4Init kernel memory).2.2 = [] ∨
      (tcpServerIpv4Init kernel memory).2.2 = [.take kernel.socket, .give kernel.socket])) ∨
    (0 ≤ kernel.socket ∧ tcpServerIpv4Init kernel memory =
      (0, tcpServerInit kernel.socket, [.take kernel.socket])) := by
  rw [tcpServerIpv4Init]
  by_cases failed : kernel.socket < 0
  · rw [if_pos failed]
    exact .inl ⟨rfl, .inl rfl⟩
  · rw [if_neg failed]
    split_ifs
    · exact .inl ⟨rfl, .inr rfl⟩
    · exact .inl ⟨rfl, .inr rfl⟩
    · exact .inr ⟨Int.not_lt.mp failed, rfl⟩

end KongjaExpress.Net
