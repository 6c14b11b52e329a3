import AthemeContrib.Lib.Run
import AthemeContrib.Lib.EventLoop
import AthemeContrib.Lib.CString
import AthemeContrib.Lib.Rows
import AthemeContrib.Lib.Prog
import AthemeContrib.Command
import AthemeContrib.Defcon
import AthemeContrib.Mxcheck
import AthemeContrib.Badwords
import AthemeContrib.OsJoinmon
import AthemeContrib.NsGoodmail
import AthemeContrib.Announceserv.Model
import AthemeContrib.Dnsbl.Model
import AthemeContrib.Dnsbl.Lookup
import AthemeContrib.Dnsbl.Action
import AthemeContrib.Dnsbl.Exempt
import AthemeContrib.Wumpus.Model
import AthemeContrib.Wumpus.State
import AthemeContrib.Wumpus.Rules
import AthemeContrib.Wumpus.Build
import AthemeContrib.Wumpus.Turns
import AthemeContrib.Wumpus.Represented
import AthemeContrib.Wumpus.Timers
import AthemeContrib.Wumpus.Contents
import AthemeContrib.Wumpus.Survivors
import AthemeContrib.Trace.Model
import AthemeContrib.Trace.Params
import AthemeContrib.Trace.Guard
import AthemeContrib.Trace.Meaning
import AthemeContrib.Vhostonreg
import AthemeContrib.Ajoin
import AthemeContrib.Savechanmodes.Restore
import AthemeContrib.Restart
import AthemeContrib.Announceserv.Lifecycle
import AthemeContrib.Fsend
import AthemeContrib.Sendpassmail
import AthemeContrib.Wumpus.Meeting
import AthemeContrib.Ajoin.Delete
import AthemeContrib.Lib.Flags
import AthemeContrib.Mlocktweaker
import AthemeContrib.Trace.Compare
import AthemeContrib.Trace.Kill
import AthemeContrib.Trace.Duration
import AthemeContrib.AccessAlias
import AthemeContrib.NsForbid
import AthemeContrib.Savechanmodes.Stray
import AthemeContrib.Wumpus.Distance
import AthemeContrib.Lib.Stream
import AthemeContrib.Wumpus.Exits
import AthemeContrib.Lib.Tally
import AthemeContrib.Wumpus.Moves
import AthemeContrib.Wumpus.Combat
import AthemeContrib.NsCleannick
import AthemeContrib.Badwords.Enforce
import AthemeContrib.CommandLists
import AthemeContrib.Lib.Heap
import AthemeContrib.Resolve
import AthemeContrib.Trace.Reason
import AthemeContrib.OnDbSave
import AthemeContrib.SaslBlacklist
import AthemeContrib.Lib.Lines
import AthemeContrib.LineServers
import AthemeContrib.Trace.Akill
import AthemeContrib.Lib.Pursuit
import AthemeContrib.Wumpus.Hunt
import AthemeContrib.OsAkillnicklist
import AthemeContrib.OsKlinechan
import AthemeContrib.Klines
import AthemeContrib.Lib.Veto
import AthemeContrib.Registration
import AthemeContrib.Lib.Dot
import AthemeContrib.Graphtastical
import AthemeContrib.Dnsbl.Reload
import AthemeContrib.Sendpassmail.Keys
import AthemeContrib.Lib.Mirror
import AthemeContrib.Updown
import AthemeContrib.Lib.Standing
import AthemeContrib.OsJoinmon.Watch
import AthemeContrib.Badwords.History
import AthemeContrib.Lib.Since
import AthemeContrib.Userinfo
import AthemeContrib.Lib.Scanf
import AthemeContrib.Dnsbl.Query
import AthemeContrib.OsTestproc
