import Libc6Shim.CSemOutcome
import Libc6Shim.CSemBuffer
import Libc6Shim.CSemProg
import Libc6Shim.CSemFlags
import Libc6Shim.CSemString
import Libc6Shim.CSemSystem
import Libc6Shim.Abi
import Libc6Shim.SockNames
import Libc6Shim.SockAddr
import Libc6Shim.SockControl
import Libc6Shim.ControlRound
import Libc6Shim.ControlBounds
import Libc6Shim.ControlLayout
import Libc6Shim.SockCalls
import Libc6Shim.Netdb
import Libc6Shim.ErrnoDelivery
import Libc6Shim.RecvmsgRuns
import Libc6Shim.ReceivedAddr
import Libc6Shim.UnixAddr
import Libc6Shim.Mutex
import Libc6Shim.MutexLife
import Libc6Shim.MutexLazyInit
import Libc6Shim.ProcExe
import Libc6Shim.FileCalls
import Libc6Shim.PathAgreement
import Libc6Shim.Fcntl
import Libc6Shim.StatusFlags
import Libc6Shim.Signals
import Libc6Shim.CrashHandlers
import Libc6Shim.SignalStore
import Libc6Shim.Locales
import Libc6Shim.LocaleHandles
import Libc6Shim.Localeconv
import Libc6Shim.MutexKinds
import Libc6Shim.RubyRegex
import Libc6Shim.Prototype
import Libc6Shim.WrapperGen
import Libc6Shim.Environ
import Libc6Shim.Getopt
import Libc6Shim.ShimTypes
import Libc6Shim.DeclPatterns
import Libc6Shim.PrototypeForms
import Libc6Shim.WrapperRoundTrip
import Libc6Shim.WrapperSignature
import Libc6Shim.RecvTwins
import Libc6Shim.SendTwins
import Libc6Shim.ControlReturn
import Libc6Shim.OpenRequests
import Libc6Shim.SockOptions
import Libc6Shim.PassThrough
import Libc6Shim.CSemHeap
import Libc6Shim.Dirent
import Libc6Shim.DirStreams
import Libc6Shim.Glob
import Libc6Shim.GlobResults
import Libc6Shim.Futex
import Libc6Shim.Syscall
import Libc6Shim.SyscallTwins
import Libc6Shim.CSemStrFun
import Libc6Shim.FortifiedStrings
import Libc6Shim.ErrorTexts
import Libc6Shim.RecordLocks
import Libc6Shim.DriverRequests
import Libc6Shim.FopenPaths
import Libc6Shim.ShmOpen
import Libc6Shim.DeviceIds
import Libc6Shim.SockaddrRound
import Libc6Shim.MutexAttrs
import Libc6Shim.ThreadJoin
import Libc6Shim.ProcExeTwins
import Libc6Shim.CSemCalendar
import Libc6Shim.Tzset
import Libc6Shim.Statfs
import Libc6Shim.NarrowRecords
import Libc6Shim.CSemOwnedList
import Libc6Shim.NetRecords
import Libc6Shim.Addrinfo
import Libc6Shim.AddrinfoAnswers
import Libc6Shim.Ifaddrs
import Libc6Shim.IfaddrsCopies
import Libc6Shim.Scandir
import Libc6Shim.ScandirRuns
import Libc6Shim.CSemTraces
import Libc6Shim.CSemTrampoline
import Libc6Shim.CSemTrampolineRuns
import Libc6Shim.Callbacks
import Libc6Shim.RubyTables
import Libc6Shim.SymbolTables
import Libc6Shim.SymbolExports
import Libc6Shim.WrapperMacros
import Libc6Shim.CSemBitSets
import Libc6Shim.SignalSets
import Libc6Shim.SignalMaskRuns
import Libc6Shim.WrapperLogs
import Libc6Shim.CSemMachine
import Libc6Shim.WaitAttrs
import Libc6Shim.SchedSettings
import Libc6Shim.CSemConditionals
import Libc6Shim.WrappersFile
import Libc6Shim.DynamicLinking
import Libc6Shim.LibraryExports
